import PCProject.PoolEndState

namespace PCProject

section Moves
variable {ι κ α : Type} [DecidableEq ι] [DecidableEq κ] [Fintype ι] [Fintype κ]
variable {lim : QueueLimits} {single : Bool} {s : MonitorState ι κ α}
  {cs : List (Nat × QueueChunk α)} {content : List α}

/-- A consumer that is not asleep can pass through QUEUE_get once more. -/
theorem MonitorInv.get_total (inv : MonitorInv lim s cs content) (single : Bool) {t : ι} (up : s.readers t ≠ .asleep) :
    ∃ woken fresh, (monitorGet lim single s t woken fresh).isSome = true := by
  obtain ⟨woken, can⟩ := s.writers.exists_canSignal single
  obtain ⟨fresh, free⟩ := inv.rep.exists_free
  by_cases empty : content = []
  · exact ⟨woken, fresh, by simp [monitorGet, up, inv.rep.getWaits, empty]⟩
  · obtain ⟨task, queue, body⟩ := inv.rep.get_total empty free
    exact ⟨woken, fresh, by simp [monitorGet, up, inv.rep.getWaits, empty, can, body]⟩

/-- A producer that is not asleep and has something to add can pass through QUEUE_add once more. -/
theorem MonitorInv.add_total (inv : MonitorInv lim s cs content) (single : Bool) {t : κ} {task : α}
    {rest : List α} (pending : s.todo t = task :: rest) (up : s.writers t ≠ .asleep) :
    ∃ woken fresh s', monitorStep lim single s (.add t woken fresh) = some s' := by
  obtain ⟨woken, can⟩ := s.readers.exists_canSignal single
  obtain ⟨fresh, free⟩ := inv.rep.exists_free
  obtain ⟨waits, known⟩ := inv.rep.addWaits_total
  cases waits with
  | true => exact ⟨woken, fresh, _, monitorStep_iff.mpr (.addSleep pending up known)⟩
  | false =>
    obtain ⟨queue, body⟩ := inv.rep.add_total task free
    exact ⟨woken, fresh, _, monitorStep_iff.mpr (.add pending up known can body)⟩

end Moves

section Steps
variable {τ Λ μ κ : Type} {n : Nat} [DecidableEq κ] [Fintype κ]
variable {cfg : PoolConfig κ τ Λ μ} {s : PoolState n κ τ Λ μ}

/-- Some thread can take a step of its own accord. -/
def CanStep (cfg : PoolConfig κ τ Λ μ) (s : PoolState n κ τ Λ μ) : Prop :=
  ∃ action s', action.isWakeup = false ∧ poolStep cfg s action = some s'

/-- A worker outside the wait loop of QUEUE_get can always go on. -/
theorem CanStep.worker {w : Fin n} (started : s.workers w ≠ .notCreated) (running : (s.workers w).isExited = false)
    (outside : (s.workers w).isGetting = false) : CanStep cfg s := by
  suffices ∃ s', workerStep cfg s w = some s' by
    obtain ⟨s', step⟩ := this
    exact ⟨.worker w, s', rfl, step⟩
  unfold workerStep
  cases here : s.workers w with
  | notCreated => exact absurd here started
  | getting => rw [here] at outside; cases outside
  | exited => rw [here] at running; cases running
  | popped tw => exact ⟨_, rfl⟩
  | switching tw =>
    cases tw with
    | kill => exact ⟨_, rfl⟩
    | exec task => exact ⟨_, rfl⟩
  | running task loc =>
    cases next : cfg.func.step loc s.memory with
    | none => exact ⟨_, by simp only [next]; rfl⟩
    | some pair => exact ⟨_, by simp only [next]; rfl⟩
  | completing tw => exact ⟨_, rfl⟩

theorem CanStep.get (reach : (poolSystem cfg n).Reach s) {w : Fin n} (getting : s.workers w = .getting)
    (up : s.monitor.readers w ≠ .asleep) : CanStep cfg s := by
  obtain ⟨cs, content, inv⟩ := monitor_inv (pool_monitor_reach reach)
  obtain ⟨woken, fresh, total⟩ := inv.get_total cfg.single up
  obtain ⟨⟨result, monitor⟩, run⟩ := Option.isSome_iff_exists.mp total
  cases result with
  | none => exact ⟨.get w woken fresh, _, rfl, by simp only [poolStep, getting, run]; rfl⟩
  | some tw => exact ⟨.get w woken fresh, _, rfl, by simp only [poolStep, getting, run]; rfl⟩

theorem CanStep.add (reach : (poolSystem cfg n).Reach s) (all : s.created = n) {j : κ} (pending : s.monitor.todo j ≠ [])
    (up : s.monitor.writers j ≠ .asleep) : CanStep cfg s := by
  obtain ⟨cs, content, inv⟩ := monitor_inv (pool_monitor_reach reach)
  obtain ⟨task, rest, split⟩ := List.exists_cons_of_ne_nil pending
  obtain ⟨woken, fresh, monitor, run⟩ := inv.add_total cfg.single split up
  exact ⟨.add j woken fresh, _, rfl, by simp only [poolStep, all, run]; rfl⟩

/-- Where no worker can take a step, every worker has exited or sleeps in QUEUE_get. -/
theorem stuck_workers (reach : (poolSystem cfg n).Reach s) (all : s.created = n) (stuck : ¬CanStep cfg s) (w : Fin n) :
    s.workers w = .exited ∨ s.workers w = .getting ∧ s.monitor.readers w = .asleep := by
  have started : s.workers w ≠ .notCreated := by
    intro missing
    have late := ((pool_order reach).notCreated w).mp missing
    omega
  by_cases gone : (s.workers w).isExited = true
  · exact Or.inl (WorkerState.eq_exited gone)
  · have running : (s.workers w).isExited = false := by simpa using gone
    have getting : s.workers w = .getting := by
      by_contra other
      refine stuck (CanStep.worker started running ?_)
      cases here : s.workers w with
      | getting => exact absurd here other
      | _ => rfl
    refine Or.inr ⟨getting, ?_⟩
    by_contra up
    exact stuck (CanStep.get reach getting up)

/-- In such a state no worker is on its way to QUEUE_get after a signal. -/
theorem stuck_signalled (reach : (poolSystem cfg n).Reach s) (all : s.created = n) (stuck : ¬CanStep cfg s) :
    s.monitor.readers.signalled = ∅ := by
  refine Finset.eq_empty_of_forall_notMem fun w member => ?_
  have signalled := WaitSet.mem_signalled.mp member
  rcases stuck_workers reach all stuck w with exited | ⟨-, asleep⟩
  · have awake := pool_waiting reach w (by rw [exited]; rfl)
    rw [awake] at signalled
    cases signalled
  · rw [asleep] at signalled
    cases signalled

end Steps

variable {τ Λ μ : Type} {n : Nat}
variable {limits : QueueLimits} {single : Bool} {func : TaskFunc τ Λ μ} {tasks : List τ} {memory : μ}
  {s : PoolState n Unit τ Λ μ}

/-- The kill wrappers still queued are for the workers that have not popped one. -/
theorem pool_kills_left (reach : (poolSystem (singleProducer limits single func tasks memory) n).Reach s)
    {cs : List (Nat × QueueChunk (TaskWrapper τ))} {content : List (TaskWrapper τ)}
    (inv : MonitorInv limits s.monitor cs content) :
    ∑ w, (s.workers w).killed + killsOf content + killsOf (s.monitor.todo ()) = n := by
  have followed := congrArg killsOf (pool_script reach)
  rw [← inv.order] at followed
  rw [← pool_kills reach]
  simpa [script, Nat.add_assoc] using followed

/-- The pool cannot deadlock: as long as WP_join has not returned, some thread can take a step
without a spurious wakeup. -/
theorem worker_pool_no_deadlock (positive : 0 < n)
    (reach : (poolSystem (singleProducer limits single func tasks memory) n).Reach s) (unjoined : s.joined ≠ n) :
    ∃ action s', action.isWakeup = false ∧
      poolStep (singleProducer limits single func tasks memory) s action = some s' := by
  by_contra stuck
  have order := pool_order reach
  have bound := order.joined
  have all : s.created = n := by
    by_contra fewer
    have below : s.created < n := by have := order.created; omega
    exact stuck ⟨.create, _, rfl, by simp only [poolStep, below]; rfl⟩
  have places := stuck_workers reach all stuck
  have unsignalled := stuck_signalled reach all stuck
  obtain ⟨cs, content, inv⟩ := monitor_inv (pool_monitor_reach reach)
  have left := pool_kills_left reach inv
  by_cases finished : s.monitor.todo () = []
  · have below : s.joined < n := by omega
    have waited : s.workers ⟨s.joined, below⟩ ≠ .exited := by
      intro gone
      exact stuck ⟨.join, _, rfl, by simp only [poolStep, all, singleProducer, finished, below, gone]; rfl⟩
    obtain ⟨getting, asleep⟩ := (places ⟨s.joined, below⟩).resolve_left waited
    have fewer : ∑ w, (s.workers w).killed < n := by
      have strict := Finset.sum_lt_sum (fun w (_ : w ∈ Finset.univ) => (s.workers w).killed_le_one)
        ⟨⟨s.joined, below⟩, Finset.mem_univ _, by rw [getting]; exact Nat.zero_lt_one⟩
      simpa using strict
    have queued : killsOf content ≤ content.length := List.countP_le_length
    have covered := inv.readers ⟨_, WaitSet.mem_sleepers.mpr asleep⟩
    rw [unsignalled, Finset.card_empty] at covered
    rw [finished, killsOf_nil] at left
    omega
  · have asleep : s.monitor.writers () = .asleep := by
      by_contra up
      exact stuck (CanStep.add reach all finished up)
    have noWriter : s.monitor.writers.signalled = ∅ := by
      refine Finset.eq_empty_of_forall_notMem fun _ member => ?_
      have signalled := WaitSet.mem_signalled.mp member
      rw [asleep] at signalled
      cases signalled
    have gone (w : Fin n) : s.workers w = .exited := by
      refine (places w).resolve_right fun waiting => ?_
      exact inv.not_all_asleep ⟨w, WaitSet.mem_sleepers.mpr waiting.2⟩ ⟨(), WaitSet.mem_sleepers.mpr asleep⟩
        unsignalled noWriter
    have kills := script_kills positive (pool_script reach) finished
    have total : ∑ w, (s.workers w).killed = n := by simp [gone, WorkerState.killed]
    omega

/-- One worker that waits for its first task. -/
theorem worker_pool_no_deadlock_waiting :
    ∃ s : PoolState 2 Unit Nat Nat Unit, s.monitor.readers 1 = .asleep ∧ s.monitor.writers () = .asleep ∧
      ∃ action s', action.isWakeup = false ∧ poolStep twoTasks s action = some s' := by
  have run : (poolSystem twoTasks 2).exec (.start twoTasks 2 0)
      [.create, .create, .get 0 ∅ 1, .get 1 ∅ 1, .add () {0} 1, .add () ∅ 1] = some _ := rfl
  exact ⟨_, rfl, rfl, worker_pool_no_deadlock (by decide) (System.Reach.exec (.start ⟨0, rfl⟩) run) (by decide)⟩

end PCProject
