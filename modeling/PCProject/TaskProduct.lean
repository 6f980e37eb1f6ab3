import PCProject.ChunkedProduct
import PCProject.SequentialProduct
import PCProject.RangeProduct
import PCProject.PoolTasks

namespace PCProject
variable {work : Workload} {op : Operation} {memory : MatrixMemory} {task : MultiplicationTask} {row col idx k : Int}

theorem Operation.Part.range (part : op.Part task) : op.Range task :=
  ⟨part.op1, part.op2, part.res, part.start, part.order.le, part.upper⟩

theorem Workload.exact (member : op ∈ work.operations) (lo hi : Int) : op.Exact work.memory lo hi :=
  fun _ _ _ _ more => termFits member more

/-- What holds of `sub_multiplication_handler` where it is, when its task belongs to a workload. -/
def SubMultiplication.Doing (work : Workload) (op : Operation) (h : SubMultiplication) (memory : MatrixMemory) : Prop :=
  h.Filling op work.memory memory

namespace SubMultiplication
variable {h h' : SubMultiplication} {memory' : MatrixMemory}

theorem Doing.enter (member : op ∈ work.operations) (part : op.Part task) : (enter task).Doing work op memory :=
  Filling.enter (work.placed member) part.range

/-- What one step of the handler does. -/
theorem Doing.step (preserved : Preserved work memory) (member : op ∈ work.operations) (part : op.Part h.task)
    (doing : h.Doing work op memory) (next : h.step memory = some (h', memory')) :
    h'.task = h.task ∧ h'.Doing work op memory' ∧ OwnWrite op h.task memory memory' :=
  Filling.step (work.placed member) (preserved.kept member) part.range doing next

theorem Doing.returns (doing : h.Doing work op memory) (last : h.step memory = none) :
    Computed work op h.task.startIdx h.task.endIdx memory :=
  Filling.returns doing last

/-- The operations of a workload do not overflow, so a handler of one of them is never stopped. -/
theorem Doing.unfaulted (member : op ∈ work.operations) (doing : h.Doing work op memory) (fault : MatrixFault) :
    h.point ≠ .faulted fault :=
  Filling.unfaulted doing (Workload.exact member _ _) fault

/-- A write outside the task of a handler does not disturb it. -/
theorem Doing.set (doing : h.Doing work op memory) (part : op.Part h.task) {block : Nat} {value : Int} (above : 0 ≤ idx)
    (outside : op.product.data = block → idx < h.task.startIdx ∨ h.task.endIdx ≤ idx) :
    h.Doing work op (memory.set block idx value) :=
  Filling.set doing part.range above outside

end SubMultiplication

variable {taskChunkSize : Int} {memory' : MatrixMemory}

theorem OwnWrite.preserved (write : OwnWrite op task memory memory') (preserved : Preserved work memory)
    (member : op ∈ work.operations) : Preserved work memory' := by
  rcases write with rfl | ⟨idx, value, -, -, rfl⟩
  · exact preserved
  · exact preserved.set member idx value

/-- The proof that the handlers of all tasks of a workload compute the exact products. -/
def productProof (work : Workload) (positive : 1 ≤ taskChunkSize) :
    TaskProof subMultiplicationHandler (work.tasks taskChunkSize) where
  shared := Preserved work
  running task h memory := h.task = task ∧ ∀ op ∈ work.operations, op.Part task → h.Doing work op memory
  done task memory := ∀ op ∈ work.operations, op.Part task → Computed work op task.startIdx task.endIdx memory
  enter task _ memory _ := ⟨rfl, fun op inside part => .enter inside part⟩
  step := by
    intro task member h memory h' memory' preserved running next
    obtain ⟨rfl, doing⟩ := running
    obtain ⟨op, inside, part⟩ := Workload.part positive member
    obtain ⟨same, -, write⟩ := (doing op inside part).step preserved inside part next
    refine ⟨write.preserved preserved inside, same, ?_⟩
    exact fun op' inside' part' => ((doing op' inside' part').step preserved inside' part' next).2.1
  returns := by
    intro task member h memory preserved running last
    obtain ⟨rfl, doing⟩ := running
    exact fun op inside part => (doing op inside part).returns last
  others := by
    intro task member other member' apart h memory h' memory' preserved running next
    obtain ⟨rfl, doing⟩ := running
    obtain ⟨op, inside, part⟩ := Workload.part positive member
    obtain ⟨-, -, write⟩ := (doing op inside part).step preserved inside part next
    rcases write with rfl | ⟨idx, value, first, last, rfl⟩
    · exact ⟨fun _ => id, id⟩
    · have above : 0 ≤ idx := part.start.trans first
      have outside {op' : Operation} (part' : op'.Part other) (same : op'.product.data = op.product.data) :
          idx < other.startIdx ∨ other.endIdx ≤ idx := by
        have blocks : h.task.res.data = other.res.data := by rw [part.res, part'.res, same]
        rcases Workload.tasks_apart positive member member' apart blocks with before | after
        · exact Or.inl (last.trans_le before)
        · exact Or.inr (after.trans first)
      refine ⟨?_, ?_⟩
      · intro place running
        obtain ⟨rfl, doing'⟩ := running
        exact ⟨rfl, fun op' inside' part' => (doing' op' inside' part').set part' above (outside part')⟩
      · intro done op' inside' part'
        exact Operation.Filled.set (done op' inside' part') part'.start above (outside part')

end PCProject
