import PCProject.WorkerPoolEnd

namespace PCProject
variable {τ Λ μ κ : Type} {n : Nat} [DecidableEq κ] [Fintype κ]
variable {cfg : PoolConfig κ τ Λ μ} {s : PoolState n κ τ Λ μ}

/-- One WP_request_stop among any number of producers. No worker ever pops two kill wrappers,
and once all workers have exited the last kill wrapper splits the tasks: those added before it
are completed, once each, and those added after it are still in the queue. -/
theorem stop_tokens_split_tasks (positive : 0 < n) (once : ∑ j, (cfg.programs j).countP Request.isStop = 1)
    (reach : (poolSystem cfg n).Reach s) :
    (∀ w, (s.monitor.popped.countP fun p => p.1 = w ∧ p.2.isKill) ≤ 1) ∧
    ((∀ w, (s.workers w).isExited = true) →
      ∃ before after cs, s.monitor.added = before ++ .kill :: after ∧ killsOf before + 1 = n ∧ killsOf after = 0 ∧
        s.monitor.popped.map Prod.snd = before ++ [.kill] ∧ s.completed.Perm (tasksOf before) ∧
        Represents cfg.limits s.monitor.queue cs after) := by
  refine ⟨fun w => ?_, pool_split reach positive once⟩
  rw [(pool_account reach).kills w]
  exact (s.workers w).killed_le_one

/-- A producer that adds two tasks and another one that stops the pool in between. -/
def stopBetweenTasks : PoolConfig Bool Nat Nat Unit where
  limits := .smallest
  single := true
  func := { enter := id, step := fun _ _ => none }
  main := false
  programs j := if j then [.enqueueTask 5, .enqueueTask 6] else [.requestStop]
  memory := ()

theorem stop_tokens_split_two_tasks :
    ∃ s : PoolState 2 Bool Nat Nat Unit, (∀ w, (s.workers w).isExited = true) ∧ s.completed = [5] ∧
      ∃ before after cs, s.monitor.added = before ++ .kill :: after ∧ s.completed.Perm (tasksOf before) ∧
        Represents .smallest s.monitor.queue cs after := by
  have run : (poolSystem stopBetweenTasks 2).exec (.start stopBetweenTasks 2 0)
      [.create, .create, .get 1 ∅ 1, .add true {1} 1, .get 1 ∅ 2, .worker 1, .worker 1, .add false ∅ 3, .get 0 ∅ 4,
        .worker 1, .worker 1, .add false ∅ 3, .get 1 ∅ 3, .add true ∅ 5, .worker 0, .worker 0, .worker 0, .worker 1,
        .worker 1, .worker 1] = some _ := rfl
  obtain ⟨-, split⟩ := stop_tokens_split_tasks (by decide) (by decide) (System.Reach.exec (.start ⟨0, rfl⟩) run)
  obtain ⟨before, after, cs, added, -, -, -, done, rep⟩ := split (by decide)
  exact ⟨_, by decide, rfl, before, after, cs, added, done, rep⟩

end PCProject
