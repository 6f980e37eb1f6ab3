import PCProject.PoolEndState

namespace PCProject
variable {τ Λ μ κ : Type} {n : Nat} [DecidableEq κ] [Fintype κ]
variable {cfg : PoolConfig κ τ Λ μ} {s s' : PoolState n κ τ Λ μ} {action : PoolAction n κ}

/-- Whether a worker has popped a wrapper and not yet passed it to QUEUE_register_completion. -/
def WorkerState.held : WorkerState τ Λ → Nat
  | .popped _ | .switching _ | .running _ _ | .completing _ => 1
  | _ => 0

/-- Whether a worker is between the two sections of QUEUE_get. -/
def WorkerState.uncounted : WorkerState τ Λ → Nat
  | .popped _ => 1
  | _ => 0

/-- Whether a step is a section of QUEUE_register_completion. -/
def PoolState.registers (s : PoolState n κ τ Λ μ) : PoolAction n κ → Bool
  | .worker w =>
    match s.workers w with
    | .completing _ => true
    | _ => false
  | _ => false

/-- The sections of QUEUE_register_completion along a schedule. -/
def registrations (cfg : PoolConfig κ τ Λ μ) (s : PoolState n κ τ Λ μ) : List (PoolAction n κ) → Nat
  | [] => 0
  | action :: rest =>
    (s.registers action).toNat + ((poolStep cfg s action).elim 0 fun s => registrations cfg s rest)

theorem WorkerState.held_eq (state : WorkerState τ Λ) : (state.held : Int) = state.counted + state.uncounted := by
  cases state <;> rfl

/-- A wrapper comes into a worker's hands where it is popped and leaves them where its completion is registered. -/
theorem PoolMove.held (order : PoolOrder cfg s) (move : PoolMove cfg s action s') :
    s'.monitor.popped.length + ∑ w, (s.workers w).held =
      s.monitor.popped.length + ∑ w, (s'.workers w).held + (s.registers action).toNat := by
  have moved {w : Fin n} {state : WorkerState τ Λ} (here : s.workers w = state) (next : WorkerState τ Λ) :
      (∑ u, (Function.update s.workers w next u).held) + state.held = (∑ u, (s.workers u).held) + next.held := by
    rw [← here]
    exact sum_update_add WorkerState.held s.workers w next
  have silent {w : Fin n} {state next : WorkerState τ Λ} (here : s.workers w = state) (same : next.held = state.held)
      (quiet : s.registers action = false) : s.monitor.popped.length + ∑ u, (s.workers u).held =
        s.monitor.popped.length + ∑ u, (Function.update s.workers w next u).held + (s.registers action).toNat := by
    rw [sum_update_same WorkerState.held s.workers (same.trans (congrArg WorkerState.held here.symm)), quiet]
    rfl
  cases move with
  | create below => exact silent (order.fresh below) rfl rfl
  | add _ move => rw [move.popped_same nofun]; rfl
  | getSleep _ _ popped => rw [popped]; rfl
  | @get w woken fresh monitor tw here move popped =>
    have step := moved here (.popped tw)
    have taken : (WorkerState.popped tw : WorkerState τ Λ).held = 1 := rfl
    have before : (WorkerState.getting : WorkerState τ Λ).held = 0 := rfl
    have quiet : s.registers (.get w woken fresh) = false := rfl
    rw [popped, List.length_append, List.length_singleton, quiet, Bool.toNat_false]
    dsimp only
    omega
  | dispatch here => exact silent here rfl (by simp [PoolState.registers, here])
  | switchKill here => exact silent here rfl (by simp [PoolState.registers, here])
  | switchExec here => exact silent here rfl (by simp [PoolState.registers, here])
  | run here => exact silent here rfl (by simp [PoolState.registers, here])
  | returned here => exact silent here rfl (by simp [PoolState.registers, here])
  | @complete w tw here =>
    have step := moved here (if tw.isKill then .exited else .getting)
    have after : (if tw.isKill then .exited else .getting : WorkerState τ Λ).held = 0 := by split <;> rfl
    have before : (WorkerState.completing tw : WorkerState τ Λ).held = 1 := rfl
    have passed : s.registers (.worker w) = true := by simp [PoolState.registers, here]
    rw [passed, Bool.toNat_true]
    dsimp only
    omega
  | join => rfl
  | wakeWorker move => rw [move.popped_same nofun]; rfl
  | wakeProducer move => rw [move.popped_same nofun]; rfl

/-- The wrappers in the workers' hands are those popped and not yet registered as completed. -/
theorem exec_held {schedule : List (PoolAction n κ)} (reach : (poolSystem cfg n).Reach s)
    (run : (poolSystem cfg n).exec s schedule = some s') :
    s'.monitor.popped.length + ∑ w, (s.workers w).held =
      s.monitor.popped.length + ∑ w, (s'.workers w).held + registrations cfg s schedule := by
  induction schedule generalizing s with
  | nil =>
    cases run
    rfl
  | cons action rest ih =>
    obtain ⟨middle, step, run⟩ := Option.bind_eq_some_iff.mp run
    have first := (poolStep_move step).held (pool_order reach)
    have later := ih (reach.next step) run
    have here : registrations cfg s (action :: rest) =
        (s.registers action).toNat + registrations cfg middle rest := by
      rw [registrations, show poolStep cfg s action = some middle from step]
      rfl
    omega

/-- `dispatched` counts the wrappers in the workers' hands, except where a worker is between the sections of
QUEUE_get. -/
theorem pool_held (reach : (poolSystem cfg n).Reach s) :
    s.monitor.queue.dispatched + ∑ w, ((s.workers w).uncounted : Int) = ∑ w, ((s.workers w).held : Int) := by
  rw [pool_dispatched reach, ← Finset.sum_add_distrib]
  exact Finset.sum_congr rfl fun w _ => ((s.workers w).held_eq).symm

/-- Where `dispatched` is 0 every worker is outside the part of its loop that is counted. -/
theorem pool_idle (reach : (poolSystem cfg n).Reach s) (idle : s.monitor.queue.dispatched = 0) (w : Fin n) :
    (s.workers w).counted = 0 := by
  have share (u : Fin n) : 0 ≤ (s.workers u).counted := by
    unfold WorkerState.counted
    split <;> omega
  rw [pool_dispatched reach, Finset.sum_eq_zero_iff_of_nonneg fun u _ => share u] at idle
  exact idle w (Finset.mem_univ w)

theorem WorkerState.inflight_eq_zero {state : WorkerState τ Λ} (idle : state.counted = 0) :
    state.inflight = 0 ↔ ∀ task, state ≠ .popped (.exec task) := by
  cases state with
  | popped tw => cases tw <;> simp [inflight, TaskWrapper.task?]
  | notCreated => simp [inflight]
  | getting => simp [inflight]
  | exited => simp [inflight]
  | switching => cases idle
  | running => cases idle
  | completing => cases idle

/-- What the counter and the queue tell: they account for every wrapper that was added, but for those with which
a worker is between the two sections of QUEUE_get. -/
theorem pool_quiescence {fresh : Nat} {schedule : List (PoolAction n κ)}
    (run : (poolSystem cfg n).exec (.start cfg n fresh) schedule = some s) :
    s.monitor.queue.dispatched + ∑ w, ((s.workers w).uncounted : Int) =
      s.monitor.popped.length - registrations cfg (.start cfg n fresh) schedule ∧
    (queueGetWaits s.monitor.queue = some true → s.monitor.queue.dispatched = 0 →
      ((tasksOf s.monitor.added).Perm s.completed ↔ ∀ w task, s.workers w ≠ .popped (.exec task))) := by
  have start : (poolSystem cfg n).Reach (.start cfg n fresh) := .start ⟨fresh, rfl⟩
  have reach := start.exec run
  refine ⟨?_, fun empty idle => ?_⟩
  · have account := exec_held start run
    have outside : ∑ w : Fin n, ((PoolState.start cfg n fresh).workers w).held = 0 := Finset.sum_eq_zero fun _ _ => rfl
    have nothing : (PoolState.start cfg n fresh).monitor.popped.length = 0 := rfl
    rw [pool_held reach, ← Nat.cast_sum]
    omega
  · obtain ⟨cs, content, inv⟩ := monitor_inv (pool_monitor_reach reach)
    rw [inv.rep.getWaits, Option.some.injEq, decide_eq_true_eq] at empty
    have popped := inv.order
    rw [empty, List.append_nil] at popped
    have tasks := (pool_account reach).tasks
    rw [popped, PoolState.taken] at tasks
    rw [← Multiset.coe_eq_coe, tasks, add_eq_left, Finset.sum_eq_zero_iff]
    refine ⟨fun none_left w => ?_, fun outside w _ => ?_⟩
    · exact (WorkerState.inflight_eq_zero (pool_idle reach idle w)).mp (none_left w (Finset.mem_univ w))
    · exact (WorkerState.inflight_eq_zero (pool_idle reach idle w)).mpr (outside w)

/-- The worker has popped the first task: the queue is empty and nothing is counted, but no task is completed. -/
theorem pool_quiescence_gap : ¬∀ (schedule : List (PoolAction 1 Unit)) s,
    (poolSystem twoTasks 1).exec (.start twoTasks 1 0) schedule = some s →
    s.monitor.queue.dispatched = s.monitor.popped.length - registrations twoTasks (.start twoTasks 1 0) schedule ∧
    (queueGetWaits s.monitor.queue = some true → s.monitor.queue.dispatched = 0 →
      (tasksOf s.monitor.added).Perm s.completed) := by
  intro claim
  obtain ⟨_, quiescent⟩ := claim [.create, .add () ∅ 1, .get 0 ∅ 2] _ rfl
  exact absurd (quiescent rfl rfl).length_eq (by decide)

/-- Where both workers have registered their tasks as completed, these are all that have been added. -/
theorem pool_quiescence_completed :
    ∃ s, (poolSystem twoTasks 2).exec (.start twoTasks 2 0) ((twoTasksRun 0 1).take 16) = some s ∧
      s.monitor.queue.dispatched = 0 ∧ tasksOf s.monitor.added = [5, 6] ∧
      (tasksOf s.monitor.added).Perm s.completed := by
  have ends : ((poolSystem twoTasks 2).exec (.start twoTasks 2 0) ((twoTasksRun 0 1).take 16)).map (fun s =>
      (queueGetWaits s.monitor.queue, s.monitor.queue.dispatched, tasksOf s.monitor.added,
        ∑ w, (s.workers w).uncounted)) = some (some true, 0, [5, 6], 0) := by decide +kernel
  obtain ⟨s, run, last⟩ := Option.map_eq_some_iff.mp ends
  obtain ⟨empty, idle, added, counted⟩ : _ ∧ _ ∧ _ ∧ _ := by simpa only [Prod.mk.injEq] using last
  obtain ⟨_, quiescent⟩ := pool_quiescence run
  refine ⟨s, run, idle, added, (quiescent empty idle).mpr fun w task here => ?_⟩
  have outside := Finset.sum_eq_zero_iff.mp counted w (Finset.mem_univ w)
  rw [here] at outside
  cases outside

end PCProject
