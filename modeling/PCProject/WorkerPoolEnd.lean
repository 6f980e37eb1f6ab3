import PCProject.WorkerPoolInvariant

namespace PCProject

section Wrappers
variable {τ : Type}

@[simp] theorem killsOf_append (front back : List (TaskWrapper τ)) :
    killsOf (front ++ back) = killsOf front + killsOf back :=
  List.countP_append

@[simp] theorem killsOf_cons (tw : TaskWrapper τ) (tws : List (TaskWrapper τ)) :
    killsOf (tw :: tws) = killsOf tws + if tw.isKill then 1 else 0 :=
  List.countP_cons

@[simp] theorem tasksOf_append (front back : List (TaskWrapper τ)) :
    tasksOf (front ++ back) = tasksOf front ++ tasksOf back :=
  List.filterMap_append

@[simp] theorem killsOf_nil : killsOf ([] : List (TaskWrapper τ)) = 0 := rfl

@[simp] theorem killsOf_kills (count : Nat) : killsOf (List.replicate count (.kill : TaskWrapper τ)) = count := by
  simp [killsOf, List.countP_replicate, TaskWrapper.isKill]

@[simp] theorem killsOf_tasks (tasks : List τ) : killsOf (tasks.map .exec) = 0 := by
  simp [killsOf, TaskWrapper.isKill]

@[simp] theorem tasksOf_tasks (tasks : List τ) : tasksOf (tasks.map .exec) = tasks := by
  induction tasks with
  | nil => rfl
  | cons task rest ih => exact congrArg (task :: ·) ih

@[simp] theorem tasksOf_kills (count : Nat) : tasksOf (List.replicate count (.kill : TaskWrapper τ)) = [] := by
  induction count with
  | zero => rfl
  | succ count ih => exact ih

/-- Each WP_request_stop of a program stands for one kill wrapper for each worker. -/
theorem killsOf_program (threadCount : Nat) (program : List (Request τ)) :
    killsOf (program.flatMap (Request.wrappers threadCount)) = threadCount * program.countP Request.isStop := by
  induction program with
  | nil => rfl
  | cons request rest ih =>
    rw [List.flatMap_cons, killsOf_append, ih, List.countP_cons]
    cases request with
    | enqueueTask task => simp [Request.wrappers, Request.isStop, TaskWrapper.isKill]
    | requestStop => simp [Request.wrappers, Request.isStop, Nat.mul_add, Nat.add_comm]

end Wrappers

variable {τ Λ μ κ : Type} {n : Nat} [DecidableEq κ] [Fintype κ]
variable {cfg : PoolConfig κ τ Λ μ} {s : PoolState n κ τ Λ μ}

/-- The kill wrappers of a run, added and still to be added. -/
theorem pool_supply (reach : (poolSystem cfg n).Reach s) :
    killsOf s.monitor.added + ∑ j, killsOf (s.monitor.todo j) = n * ∑ j, (cfg.programs j).countP Request.isStop := by
  refine pool_invariant (I := fun s => killsOf s.monitor.added + ∑ j, killsOf (s.monitor.todo j) = _) ?_ ?_ reach
  · intro fresh
    simp [PoolState.start, MonitorState.start, killsOf_program, Finset.mul_sum]
  · intro s action s' _ supply move
    rcases move.monitor with same | ⟨b, moved⟩
    · rw [same]
      exact supply
    · exact (moved.supply TaskWrapper.isKill).trans supply

/-- Every kill wrapper popped so far was popped by some worker. -/
theorem pool_kills (reach : (poolSystem cfg n).Reach s) :
    killsOf (s.monitor.popped.map Prod.snd) = ∑ w, (s.workers w).killed := by
  have account := pool_account reach
  calc killsOf (s.monitor.popped.map Prod.snd)
      = ∑ w, s.monitor.popped.countP fun p => p.1 = w ∧ p.2.isKill := (sum_countP_fst _ _).symm
    _ = ∑ w, (s.workers w).killed := Finset.sum_congr rfl fun w _ => account.kills w

theorem WorkerState.eq_exited {state : WorkerState τ Λ} (gone : state.isExited = true) : state = .exited := by
  cases state with
  | exited => rfl
  | notCreated => cases gone
  | getting => cases gone
  | popped => cases gone
  | switching => cases gone
  | running => cases gone
  | completing => cases gone

theorem WorkerState.killed_le_one (state : WorkerState τ Λ) : state.killed ≤ 1 := by
  unfold killed
  repeat' split
  all_goals omega

/-- Once all workers have exited, the last kill wrapper splits what was added into the part
that was popped, whose tasks are completed, and the part that is still queued. -/
theorem pool_split (reach : (poolSystem cfg n).Reach s) (positive : 0 < n)
    (once : ∑ j, (cfg.programs j).countP Request.isStop = 1) (gone : ∀ w, (s.workers w).isExited = true) :
    ∃ before after cs, s.monitor.added = before ++ .kill :: after ∧ killsOf before + 1 = n ∧ killsOf after = 0 ∧
      s.monitor.popped.map Prod.snd = before ++ [.kill] ∧ s.completed.Perm (tasksOf before) ∧
      Represents cfg.limits s.monitor.queue cs after := by
  obtain ⟨cs, content, inv⟩ := monitor_inv (pool_monitor_reach reach)
  have account := pool_account reach
  have supply := pool_supply reach
  have kills := pool_kills reach
  have exited (w : Fin n) : s.workers w = .exited := WorkerState.eq_exited (gone w)
  obtain ⟨before, w, popped⟩ := account.last positive fun w => by rw [exited w]; rfl
  have split : s.monitor.popped.map Prod.snd = before.map Prod.snd ++ [.kill] := by rw [popped, List.map_append]; rfl
  have all : killsOf (s.monitor.popped.map Prod.snd) = n := by
    rw [kills]
    simp [exited, WorkerState.killed]
  have order := inv.order
  rw [once, Nat.mul_one, ← order, killsOf_append, all] at supply
  rw [split] at all order
  refine ⟨before.map Prod.snd, content, cs, by simpa using order.symm, by simpa [TaskWrapper.isKill] using all,
    by omega, split, ?_, inv.rep⟩
  have tasks := account.tasks
  rw [split, PoolState.taken] at tasks
  simp only [exited, WorkerState.inflight, Finset.sum_const_zero, add_zero] at tasks
  have last : tasksOf [(.kill : TaskWrapper τ)] = [] := rfl
  rw [tasksOf_append, last, List.append_nil] at tasks
  exact Multiset.coe_eq_coe.mp tasks.symm

end PCProject
