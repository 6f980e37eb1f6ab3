import PCProject.PoolRest

namespace PCProject

/-- QUEUE_free_chunk frees the chunks of a list, and its recursion is as deep as the list is long. -/
theorem queueFreeChunk_segment {α : Type} {chunks : Cells Nat (QueueChunk α)} {p : Option Nat}
    {cs : List (Nat × QueueChunk α)} (path : Segment QueueChunk.nextChunk chunks p cs none) (depth : Nat) :
    queueFreeChunk depth chunks p =
      if cs.length ≤ depth then some fun a => if a ∈ cs.map Prod.fst then none else chunks a else none := by
  induction cs generalizing p depth with
  | nil =>
    cases path
    cases depth <;> simp [queueFreeChunk]
  | cons c cs ih =>
    cases path with
    | @cons p node _ _ stored rest =>
      cases depth with
      | zero => rfl
      | succ depth =>
        rw [queueFreeChunk, stored, Option.bind_eq_bind, Option.bind_some, ih rest depth]
        by_cases deep : cs.length ≤ depth
        · rw [if_pos deep, if_pos (by simpa using deep)]
          refine congrArg some (funext fun a => ?_)
          by_cases here : a = p
          · subst here
            rw [Cells.free_self, if_pos (List.mem_map_of_mem List.mem_cons_self)]
          · rw [Cells.free_ne _ here]
            simp only [List.map_cons, List.mem_cons, here, false_or]
        · rw [if_neg deep, if_neg (by simpa using deep)]
          rfl

/-- QUEUE_free leaves no chunk. It needs as many calls on the stack as there are live chunks. -/
theorem Represents.freed {α : Type} {lim : QueueLimits} {queue : Queue α} {cs : List (Nat × QueueChunk α)}
    {content : List α} (rep : Represents lim queue cs content) (depth : Nat) :
    queueFree depth queue = if queue.liveChunkCount ≤ depth then some fun _ => none else none := by
  rw [queueFree, queueFreeChunk_segment rep.path, rep.count]
  simp only [Int.ofNat_le]
  split
  · refine congrArg some (funext fun a => ?_)
    split
    · rfl
    · by_contra left
      exact absurd (rep.owned a left) (by assumption)
  · rfl

variable {n : Nat} {κ τ Λ μ : Type} [DecidableEq κ] [Fintype κ] {cfg : PoolConfig κ τ Λ μ} {s : PoolState n κ τ Λ μ}

/-- When WP_join has returned, WP_free gives back every chunk of the queue. What leaks are the wrappers added behind
the last kill wrapper, with their tasks; every wrapper in front of it has been worked off. -/
theorem pool_freed (positive : 0 < n) (reach : (poolSystem cfg n).Reach s) (joined : s.joined = n) :
    ∃ before leaked, s.monitor.added = before ++ .kill :: leaked ∧ killsOf before + 1 = n ∧
      s.completed.Perm (tasksOf before) ∧ s.monitor.queued = leaked ∧
      s.monitor.queue.liveChunkCount ≤ cfg.limits.maxLiveChunks ∧
      ∀ depth : Nat, queueFree depth s.monitor.queue =
        if s.monitor.queue.liveChunkCount ≤ depth then some fun _ => none else none := by
  obtain ⟨cs, content, inv⟩ := monitor_inv (pool_monitor_reach reach)
  have gone (w : Fin n) : s.workers w = .exited := WorkerState.eq_exited ((pool_order reach).exited w (by omega))
  obtain ⟨before, added, kills, completed⟩ := exited_split positive reach gone inv
  have limit := inv.rep.limit
  have count := inv.rep.count
  exact ⟨before, content, added, kills, completed, inv.queued, by omega, inv.rep.freed⟩

theorem pool_freed_two_tasks :
    ∃ s : PoolState 2 Unit Nat Nat Unit, (poolSystem twoTasks 2).exec (.start twoTasks 2 0) (twoTasksRun 0 1) = some s ∧
      queueFree 1 s.monitor.queue = some fun _ => none := by
  have run : (poolSystem twoTasks 2).exec (.start twoTasks 2 0) (twoTasksRun 0 1) = some _ := rfl
  obtain ⟨before, leaked, -, -, -, -, -, freed⟩ :=
    pool_freed (by decide) (System.Reach.exec (.start ⟨0, rfl⟩) run) rfl
  exact ⟨_, run, freed 1⟩

end PCProject
