import PCProject.WorkerPoolEnd

namespace PCProject

/-- What the sanity checks at the end of main report before they exit. -/
inductive CoreLogicIssue
  | dispatchedTasks (count : Int)
  | liveChunks (count : Int)
  | undispatchedTasks (count : Int)

def CoreLogicIssue.message : CoreLogicIssue → String
  | .dispatchedTasks count => "ERROR! Core logic issue, there are still " ++ toString count ++ " dispatched tasks\n"
  | .liveChunks count => "ERROR! Core logic issue, there are still " ++ toString count ++ " live chunks\n"
  | .undispatchedTasks count => "ERROR! Core logic issue, there are still " ++ toString count ++ " undispatched tasks\n"

/-- The sanity checks of main on the queue, `none` where `back` is not a valid pointer. -/
def sanityChecks {α : Type} (queue : Queue α) : Option (Except CoreLogicIssue Unit) :=
  if queue.dispatched ≠ 0 then some (.error (.dispatchedTasks queue.dispatched))
  else if queue.liveChunkCount ≠ 1 then some (.error (.liveChunks queue.liveChunkCount))
  else do
    let p ← queue.back
    let back ← queue.chunks p
    if back.filled ≠ back.next then some (.error (.undispatchedTasks (back.filled - back.next))) else some (.ok ())

variable {τ Λ μ : Type} {n : Nat}

/-- The wrappers that main adds to the queue of `threadCount` workers. -/
def script (threadCount : Nat) (tasks : List τ) : List (TaskWrapper τ) :=
  tasks.map .exec ++ List.replicate threadCount .kill

/-- A program with one producer, main: it adds its tasks, stops the pool and joins it. -/
def singleProducer (limits : QueueLimits) (single : Bool) (func : TaskFunc τ Λ μ) (tasks : List τ) (memory : μ) :
    PoolConfig Unit τ Λ μ where
  limits := limits
  single := single
  func := func
  main := ()
  programs _ := tasks.map .enqueueTask ++ [.requestStop]
  memory := memory

variable {limits : QueueLimits} {single : Bool} {func : TaskFunc τ Λ μ} {tasks : List τ} {memory : μ}
  {s : PoolState n Unit τ Λ μ}

theorem script_program (threadCount : Nat) (tasks : List τ) :
    (tasks.map Request.enqueueTask ++ [Request.requestStop]).flatMap (Request.wrappers threadCount) =
      script threadCount tasks := by
  induction tasks with
  | nil => simp [script, Request.wrappers]
  | cons task rest ih =>
    simpa [script, Request.wrappers] using congrArg (TaskWrapper.exec task :: ·) ih

/-- Whatever part of the script is left ends with a kill wrapper. -/
theorem script_kills {front back : List (TaskWrapper τ)} (positive : 0 < n) (split : front ++ back = script n tasks)
    (nonempty : back ≠ []) : 0 < killsOf back := by
  obtain ⟨rest, tw, rfl⟩ := (List.eq_nil_or_concat' back).resolve_left nonempty
  obtain ⟨m, rfl⟩ : ∃ m, n = m + 1 := ⟨n - 1, by omega⟩
  rw [script, List.replicate_succ', ← List.append_assoc, ← List.append_assoc] at split
  obtain ⟨-, last⟩ := List.append_inj' split rfl
  cases last
  simp [TaskWrapper.isKill]

theorem singleProducer_stops :
    ∑ j, ((singleProducer limits single func tasks memory).programs j).countP Request.isStop = 1 := by
  simp [singleProducer, Request.isStop]

/-- The producer follows its script. -/
theorem pool_script (reach : (poolSystem (singleProducer limits single func tasks memory) n).Reach s) :
    s.monitor.added ++ s.monitor.todo () = script n tasks := by
  refine pool_invariant (I := fun s => s.monitor.added ++ s.monitor.todo () = script n tasks) ?_ ?_ reach
  · exact fun _ => script_program n tasks
  · intro s action s' _ followed move
    rcases move.monitor with same | ⟨b, moved⟩
    · rw [same]
      exact followed
    · exact moved.sequence.trans followed

/-- `dispatched` stays within the number of workers. -/
theorem pool_dispatched_bounds {κ : Type} [DecidableEq κ] [Fintype κ] {cfg : PoolConfig κ τ Λ μ}
    {s : PoolState n κ τ Λ μ} (reach : (poolSystem cfg n).Reach s) :
    0 ≤ s.monitor.queue.dispatched ∧ s.monitor.queue.dispatched ≤ n := by
  have share (w : Fin n) : 0 ≤ (s.workers w).counted ∧ (s.workers w).counted ≤ 1 := by
    unfold WorkerState.counted
    split <;> omega
  rw [pool_dispatched reach]
  refine ⟨Finset.sum_nonneg fun w _ => (share w).1, ?_⟩
  have total := Finset.sum_le_sum fun w (_ : w ∈ Finset.univ) => (share w).2
  simpa using total

theorem sanityChecks_drained {α : Type} {lim : QueueLimits} {queue : Queue α} {cs : List (Nat × QueueChunk α)}
    (rep : Represents lim queue cs []) (dispatched : queue.dispatched = 0) : sanityChecks queue = some (.ok ()) := by
  obtain ⟨live, b, back, atBack, stored, read⟩ := rep.drained
  simp [sanityChecks, dispatched, live, atBack, stored, read]

/-- Once all workers are joined, the queue is drained and every task is completed. -/
theorem pool_drained (positive : 0 < n)
    (reach : (poolSystem (singleProducer limits single func tasks memory) n).Reach s) (joined : s.joined = n) :
    ∃ cs, (∀ w, s.workers w = .exited) ∧ s.monitor.added = script n tasks ∧
      s.monitor.popped.map Prod.snd = script n tasks ∧ s.completed.Perm tasks ∧
      Represents limits s.monitor.queue cs [] := by
  have order := pool_order reach
  have gone (w : Fin n) : (s.workers w).isExited = true := order.exited w (by omega)
  obtain ⟨before, after, cs, added, -, kills, popped, done, rep⟩ := pool_split reach positive singleProducer_stops gone
  have followed := pool_script reach
  rw [show s.monitor.todo () = [] from order.finished (by omega), List.append_nil] at followed
  have drained : after = [] := by
    by_contra left
    have queued : before ++ [.kill] ++ after = script n tasks := by simpa [← added] using followed
    have more := script_kills positive queued left
    omega
  subst drained
  have whole : before ++ [.kill] = script n tasks := by rw [← followed, added]
  refine ⟨cs, fun w => WorkerState.eq_exited (gone w), followed, popped.trans whole, ?_, rep⟩
  have split := congrArg tasksOf whole
  have last : tasksOf [(.kill : TaskWrapper τ)] = [] := rfl
  rw [tasksOf_append, last, List.append_nil, script, tasksOf_append, tasksOf_tasks, tasksOf_kills,
    List.append_nil] at split
  rwa [split] at done

/-- The state in which WP_join returns, for any number of workers and tasks and any schedule. -/
theorem worker_pool_end_state (positive : 0 < n)
    (reach : (poolSystem (singleProducer limits single func tasks memory) n).Reach s) :
    0 ≤ s.monitor.queue.dispatched ∧ s.monitor.queue.dispatched ≤ n ∧
    (s.joined = n →
      s.completed.Perm tasks ∧ (∀ w, s.workers w = .exited) ∧
      s.monitor.added = script n tasks ∧ s.monitor.popped.map Prod.snd = script n tasks ∧
      (∀ w, (s.monitor.popped.countP fun p => p.1 = w ∧ p.2.isKill) = 1) ∧
      s.monitor.queue.dispatched = 0 ∧ s.monitor.queue.liveChunkCount = 1 ∧
      (∃ b back, s.monitor.queue.back = some b ∧ s.monitor.queue.chunks b = some back ∧ back.filled = back.next) ∧
      sanityChecks s.monitor.queue = some (.ok ())) := by
  have bounds := pool_dispatched_bounds reach
  refine ⟨bounds.1, bounds.2, fun joined => ?_⟩
  obtain ⟨cs, exited, added, popped, completed, rep⟩ := pool_drained positive reach joined
  have dispatched : s.monitor.queue.dispatched = 0 := by
    rw [pool_dispatched reach]
    simp [exited, WorkerState.counted]
  have live := rep.drained
  refine ⟨completed, exited, added, popped, ?_, dispatched, live.1, live.2, sanityChecks_drained rep dispatched⟩
  intro w
  rw [(pool_account reach).kills w, exited w]
  rfl

/-- Two tasks for the smallest queue. -/
def twoTasks : PoolConfig Unit Nat Nat Unit :=
  singleProducer .smallest true { enter := id, step := fun _ _ => none } [5, 6] ()

/-- The workers `v` and `w` wait on the empty queue and get a task each. The second one is done first. -/
def twoTasksRun {n : Nat} (v w : Fin n) : List (PoolAction n Unit) :=
  [.create, .create, .get v ∅ 1, .get w ∅ 1, .add () {v} 1, .get v ∅ 1, .worker v, .worker v, .add () {w} 1,
    .get w ∅ 1, .worker w, .worker w, .worker w, .worker v, .worker w, .worker v, .add () ∅ 1, .get w ∅ 1, .worker w,
    .worker w, .worker w, .add () ∅ 1, .get v ∅ 1, .worker v, .worker v, .worker v, .join, .join]

theorem worker_pool_end_state_two_tasks :
    ∃ s : PoolState 2 Unit Nat Nat Unit, s.joined = 2 ∧ s.completed = [6, 5] ∧
      s.monitor.popped.map Prod.snd = script 2 [5, 6] ∧ sanityChecks s.monitor.queue = some (.ok ()) := by
  have run : (poolSystem twoTasks 2).exec (.start twoTasks 2 0) (twoTasksRun 0 1) = some _ := rfl
  obtain ⟨-, -, ended⟩ := worker_pool_end_state (by decide) (System.Reach.exec (.start ⟨0, rfl⟩) run)
  obtain ⟨-, -, -, popped, -, -, -, -, passed⟩ := ended rfl
  exact ⟨_, rfl, rfl, popped, passed⟩

end PCProject
