import PCProject.Lib.Potential
import PCProject.PoolEndState

namespace PCProject

namespace WaitSet
variable {ι : Type} [DecidableEq ι] [Fintype ι]

/-- The threads that may still go to sleep. -/
def up (w : WaitSet ι) : Nat := ∑ t, if w t = .asleep then 0 else 1

omit [DecidableEq ι] in
theorem up_le (w : WaitSet ι) : w.up ≤ Fintype.card ι := by
  have each := Finset.sum_le_sum fun t (_ : t ∈ Finset.univ) =>
    (show (if w t = .asleep then 0 else 1) ≤ 1 by split <;> omega)
  simpa [up] using each

theorem up_sleep {w : WaitSet ι} {t : ι} (awake : w t ≠ .asleep) : (w.sleep t).up + 1 = w.up := by
  have moved := sum_update_add (fun state : Wait => if state = .asleep then 0 else 1) w t .asleep
  rwa [if_pos rfl, if_neg awake] at moved

theorem up_leave {w : WaitSet ι} {t : ι} (awake : w t ≠ .asleep) : (w.leave t).up = w.up :=
  sum_update_same (fun state : Wait => if state = .asleep then 0 else 1) w (by simp [awake])

theorem up_wakeup {w : WaitSet ι} {t : ι} (down : w t = .asleep) : (w.wakeup t).up = w.up + 1 := by
  have moved := sum_update_add (fun state : Wait => if state = .asleep then 0 else 1) w t .signalled
  rwa [if_pos down, if_neg (by simp)] at moved

end WaitSet

section Monitor
variable {ι κ α : Type} [DecidableEq ι] [DecidableEq κ] [Fintype ι] [Fintype κ]
variable {lim : QueueLimits} {single : Bool} {s s' : MonitorState ι κ α} {action : MonitorAction ι κ}
  {cs : List (Nat × QueueChunk α)} {content : List α}

/-- The tasks that are added and not yet popped, from the history. -/
def MonitorState.queued (s : MonitorState ι κ α) : List α := s.added.drop s.popped.length

omit [DecidableEq ι] [DecidableEq κ] in
theorem MonitorInv.queued (inv : MonitorInv lim s cs content) : s.queued = content := by
  have length : s.popped.length = (s.popped.map Prod.snd).length := by simp
  rw [MonitorState.queued, ← inv.order, length, List.drop_left]

/-- An upper bound on the sections under `rw_mutex` that are left, without those that spurious wakeups
cause, when a popped task counts as `cost`. A section may signal every thread of the other side, and each
of them may have to go to sleep again. -/
def MonitorState.effort (cost : α → Nat) (s : MonitorState ι κ α) : Nat :=
  s.readers.up + s.writers.up + (s.queued.map fun task => cost task + Fintype.card κ + 1).sum +
    ∑ j, ((s.todo j).map fun task => cost task + Fintype.card κ + Fintype.card ι + 2).sum

/-- What a step adds to the effort and takes from it. -/
theorem MonitorMove.effort (inv : MonitorInv lim s cs content) (move : MonitorMove lim single s action s')
    (cost : α → Nat) :
    match action with
    | .get .. => (s'.popped = s.popped ∧ s'.effort cost + 1 ≤ s.effort cost) ∨
        ∃ t task, s'.popped = s.popped ++ [(t, task)] ∧ s'.effort cost + cost task + 1 ≤ s.effort cost
    | .add .. => s'.effort cost + 1 ≤ s.effort cost
    | .wakeReader _ | .wakeWriter _ => s'.effort cost = s.effort cost + 1
    | .countDispatched | .registerCompletion => s'.effort cost = s.effort cost := by
  cases move with
  | getSleep up known =>
    refine Or.inl ⟨rfl, ?_⟩
    have slept := WaitSet.up_sleep up
    simp only [MonitorState.effort, MonitorState.queued]
    omega
  | @get t woken fresh task queue up known can body =>
    have nonempty : content ≠ [] := by simpa using inv.getWaits known
    obtain ⟨cs', rest, split, -⟩ := inv.rep.get body nonempty
    have before : s.queued = task :: rest := inv.queued.trans split
    have after : s.added.drop (s.popped.length + 1) = rest := by
      rw [← List.drop_drop, ← MonitorState.queued, before]
      rfl
    have left := WaitSet.up_leave up
    have signalled := (s.writers.signal woken).up_le
    refine Or.inr ⟨t, task, rfl, ?_⟩
    have popped : (s.queued.map fun task => cost task + Fintype.card κ + 1).sum =
        cost task + Fintype.card κ + 1 + (rest.map fun task => cost task + Fintype.card κ + 1).sum := by
      rw [before, List.map_cons, List.sum_cons]
    simp only [MonitorState.effort]
    rw [MonitorState.queued, List.length_append, List.length_singleton, after]
    omega
  | addSleep pending up known =>
    have slept := WaitSet.up_sleep up
    simp only [MonitorState.effort, MonitorState.queued]
    omega
  | @add t woken fresh task rest queue pending up known can body =>
    have within : s.popped.length ≤ s.added.length := by
      have lengths := congrArg List.length inv.order
      rw [List.length_append, List.length_map] at lengths
      omega
    have after : (s.added ++ [task]).drop s.popped.length = s.queued ++ [task] := List.drop_append_of_le_length within
    have moved := sum_update_add
      (fun tasks : List α => (tasks.map fun task => cost task + Fintype.card κ + Fintype.card ι + 2).sum) s.todo t rest
    rw [pending, List.map_cons, List.sum_cons] at moved
    have left := WaitSet.up_leave up
    have signalled := (s.readers.signal woken).up_le
    simp only [MonitorState.effort]
    rw [MonitorState.queued, after]
    simp only [List.map_append, List.map_cons, List.map_nil, List.sum_append, List.sum_cons, List.sum_nil]
    omega
  | wakeReader down =>
    have woken := WaitSet.up_wakeup down
    simp only [MonitorState.effort, MonitorState.queued]
    omega
  | wakeWriter down =>
    have woken := WaitSet.up_wakeup down
    simp only [MonitorState.effort, MonitorState.queued]
    omega
  | countDispatched => rfl
  | registerCompletion => rfl

end Monitor

variable {τ Λ μ κ : Type} {n : Nat} [DecidableEq κ] [Fintype κ]
variable {cfg : PoolConfig κ τ Λ μ} {s s' : PoolState n κ τ Λ μ} {action : PoolAction n κ} {calls : Λ → Nat}

/-- The steps of a worker on a wrapper it has popped, if a call of `func` takes at most `calls`. -/
def TaskWrapper.handling (func : TaskFunc τ Λ μ) (calls : Λ → Nat) : TaskWrapper τ → Nat
  | .exec task => calls (func.enter task) + 4
  | .kill => 3

/-- The steps that a worker has left before it returns to QUEUE_get or exits. -/
def WorkerState.left (func : TaskFunc τ Λ μ) (calls : Λ → Nat) : WorkerState τ Λ → Nat
  | .popped tw => tw.handling func calls
  | .switching tw => tw.handling func calls - 1
  | .running _ loc => calls loc + 2
  | .completing _ => 1
  | _ => 0

/-- An upper bound on the steps that the threads of the pool still take of their own accord. -/
def PoolState.effort (func : TaskFunc τ Λ μ) (calls : Λ → Nat) (s : PoolState n κ τ Λ μ) : Nat :=
  (n - s.created) + (n - s.joined) + ∑ w, (s.workers w).left func calls +
    s.monitor.effort (TaskWrapper.handling func calls)

/-- In no run does a call of `func` go on for ever: each of its steps lowers a measure. -/
def PoolConfig.Returns (cfg : PoolConfig κ τ Λ μ) (n : Nat) (calls : Λ → Nat) : Prop :=
  ∀ (s : PoolState n κ τ Λ μ) w task loc loc' memory, (poolSystem cfg n).Reach s → s.workers w = .running task loc →
    cfg.func.step loc s.memory = some (loc', memory) → calls loc' < calls loc

/-- A step that some thread takes of its own accord lowers the effort, a spurious wakeup adds one step. -/
theorem PoolMove.effort (returns : cfg.Returns n calls) (reach : (poolSystem cfg n).Reach s)
    (move : PoolMove cfg s action s') :
    s'.effort cfg.func calls + (!action.isWakeup).toNat ≤ s.effort cfg.func calls + action.isWakeup.toNat := by
  have order := pool_order reach
  obtain ⟨cs, content, inv⟩ := monitor_inv (pool_monitor_reach reach)
  have moved {w : Fin n} {state : WorkerState τ Λ} (here : s.workers w = state) (next : WorkerState τ Λ) :
      (∑ u, (Function.update s.workers w next u).left cfg.func calls) + state.left cfg.func calls =
        (∑ u, (s.workers u).left cfg.func calls) + next.left cfg.func calls := by
    rw [← here]
    exact sum_update_add (WorkerState.left cfg.func calls) s.workers w next
  cases move with
  | create below =>
    have step := moved (order.fresh below) .getting
    simp only [PoolState.effort, PoolAction.isWakeup, WorkerState.left, Bool.not_false, Bool.toNat_true,
      Bool.toNat_false] at step ⊢
    omega
  | add _ move =>
    have paid := move.effort inv (TaskWrapper.handling cfg.func calls)
    simp only [PoolState.effort, PoolAction.isWakeup, Bool.not_false, Bool.toNat_true, Bool.toNat_false] at paid ⊢
    omega
  | getSleep here move popped =>
    have paid := (move.effort inv (TaskWrapper.handling cfg.func calls)).resolve_right (by simp [popped])
    simp only [PoolState.effort, PoolAction.isWakeup, Bool.not_false, Bool.toNat_true, Bool.toNat_false]
    omega
  | @get w woken fresh monitor tw here move popped =>
    obtain ⟨t, task, more, paid⟩ := (move.effort inv (TaskWrapper.handling cfg.func calls)).resolve_left (by
      simp [popped])
    rw [popped] at more
    cases List.append_cancel_left more
    have step := moved here (.popped tw)
    simp only [PoolState.effort, PoolAction.isWakeup, WorkerState.left, Bool.not_false, Bool.toNat_true,
      Bool.toNat_false] at step ⊢
    omega
  | @dispatch w tw here =>
    have step := moved here (.switching tw)
    have positive : 0 < tw.handling cfg.func calls := by
      cases tw with
      | exec task => exact Nat.succ_pos _
      | kill => exact Nat.succ_pos _
    have count : MonitorMove cfg.limits cfg.single s.monitor .countDispatched _ := .countDispatched
    have counted := count.effort inv (TaskWrapper.handling cfg.func calls)
    simp only [PoolState.effort, PoolAction.isWakeup, WorkerState.left, Bool.not_false, Bool.toNat_true,
      Bool.toNat_false] at step counted ⊢
    omega
  | switchKill here =>
    have step := moved here (.completing .kill)
    simp only [PoolState.effort, PoolAction.isWakeup, WorkerState.left, TaskWrapper.handling, Bool.not_false,
      Bool.toNat_true, Bool.toNat_false] at step ⊢
    omega
  | @switchExec w task here =>
    have step := moved here (.running task (cfg.func.enter task))
    simp only [PoolState.effort, PoolAction.isWakeup, WorkerState.left, TaskWrapper.handling, Bool.not_false,
      Bool.toNat_true, Bool.toNat_false] at step ⊢
    omega
  | @run w task loc loc' memory here next =>
    have step := moved here (.running task loc')
    have less := returns s w task loc loc' memory reach here next
    simp only [PoolState.effort, PoolAction.isWakeup, WorkerState.left, Bool.not_false, Bool.toNat_true,
      Bool.toNat_false] at step ⊢
    omega
  | @returned w task loc here last =>
    have step := moved here (.completing (.exec task))
    simp only [PoolState.effort, PoolAction.isWakeup, WorkerState.left, Bool.not_false, Bool.toNat_true,
      Bool.toNat_false] at step ⊢
    omega
  | @complete w tw here =>
    have step := moved here (if tw.isKill then .exited else .getting)
    have after : (if tw.isKill then .exited else .getting : WorkerState τ Λ).left cfg.func calls = 0 := by
      split <;> rfl
    have register : MonitorMove cfg.limits cfg.single s.monitor .registerCompletion _ := .registerCompletion
    have registered := register.effort inv (TaskWrapper.handling cfg.func calls)
    rw [after] at step
    simp only [PoolState.effort, PoolAction.isWakeup, WorkerState.left, Bool.not_false, Bool.toNat_true,
      Bool.toNat_false] at step registered ⊢
    omega
  | join below all done gone =>
    simp only [PoolState.effort, PoolAction.isWakeup, Bool.not_false, Bool.toNat_true, Bool.toNat_false]
    omega
  | wakeWorker move =>
    have more := move.effort inv (TaskWrapper.handling cfg.func calls)
    simp only [PoolState.effort, PoolAction.isWakeup, Bool.not_true, Bool.toNat_true, Bool.toNat_false] at more ⊢
    omega
  | wakeProducer move =>
    have more := move.effort inv (TaskWrapper.handling cfg.func calls)
    simp only [PoolState.effort, PoolAction.isWakeup, Bool.not_true, Bool.toNat_true, Bool.toNat_false] at more ⊢
    omega

omit [DecidableEq κ] in
/-- The effort that a run starts with. -/
theorem PoolState.effort_start (cfg : PoolConfig κ τ Λ μ) (n fresh : Nat) (calls : Λ → Nat) :
    (PoolState.start cfg n fresh).effort cfg.func calls =
      3 * n + Fintype.card κ + ∑ j, (((cfg.programs j).flatMap (Request.wrappers n)).map fun tw =>
        tw.handling cfg.func calls + Fintype.card κ + n + 2).sum := by
  have idle : ∑ _w : Fin n, (WorkerState.notCreated : WorkerState τ Λ).left cfg.func calls = 0 :=
    Finset.sum_eq_zero fun _ _ => rfl
  simp [PoolState.effort, PoolState.start, MonitorState.effort, MonitorState.start, MonitorState.queued, WaitSet.up,
    idle]
  omega

/-- The steps of the threads are paid by the effort that is left and by the spurious wakeups. -/
theorem pool_steps_paid (returns : cfg.Returns n calls) {t : PoolState n κ τ Λ μ}
    {schedule : List (PoolAction n κ)} (reach : (poolSystem cfg n).Reach s)
    (run : (poolSystem cfg n).exec s schedule = some t) :
    t.effort cfg.func calls + schedule.countP (fun action => !action.isWakeup) ≤
      s.effort cfg.func calls + schedule.countP PoolAction.isWakeup := by
  have pays (s : PoolState n κ τ Λ μ) (action : PoolAction n κ) (s' : PoolState n κ τ Λ μ)
      (reach : (poolSystem cfg n).Reach s) (step : (poolSystem cfg n).step s action = some s') :
      s'.effort cfg.func calls + (!action.isWakeup).toNat ≤ s.effort cfg.func calls + action.isWakeup.toNat :=
    (poolStep_move step).effort returns reach
  have paid := reach.spent_le pays run
  rwa [System.spent_label (fun action => !action.isWakeup) run, System.spent_label PoolAction.isWakeup run] at paid

/-- No run of the pool goes on for ever without spurious wakeups, whatever the threads and the producers do:
the steps that the threads take of their own accord are bounded from the start, but for one more step a wakeup. -/
theorem pool_steps_bounded (returns : cfg.Returns n calls) {fresh : Nat} {schedule : List (PoolAction n κ)}
    (run : (poolSystem cfg n).exec (.start cfg n fresh) schedule = some s) :
    schedule.countP (fun action => !action.isWakeup) + s.effort cfg.func calls ≤
      3 * n + Fintype.card κ + ∑ j, (((cfg.programs j).flatMap (Request.wrappers n)).map fun tw =>
        tw.handling cfg.func calls + Fintype.card κ + n + 2).sum + schedule.countP PoolAction.isWakeup := by
  have paid := pool_steps_paid returns (.start ⟨fresh, rfl⟩) run
  rw [PoolState.effort_start] at paid
  omega

theorem pool_steps_bounded_two_tasks :
    ∃ s : PoolState 2 Unit Nat Nat Unit, s.joined = 2 ∧ 28 + s.effort twoTasks.func (fun _ => 0) ≤ 41 := by
  have returns : twoTasks.Returns 2 fun _ => 0 := by
    intro s w task loc loc' memory _ _ next
    cases next
  have run : (poolSystem twoTasks 2).exec (.start twoTasks 2 0) (twoTasksRun 0 1) = some _ := rfl
  have bound := pool_steps_bounded returns run
  exact ⟨_, rfl, bound⟩

end PCProject
