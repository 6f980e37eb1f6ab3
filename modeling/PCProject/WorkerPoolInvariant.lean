import PCProject.WorkerPoolMoves
import PCProject.Lib.ThreadSum
import Mathlib.Algebra.BigOperators.Group.Multiset.Basic
import Mathlib.Data.Multiset.AddSub

namespace PCProject

section Moves
variable {ι κ α : Type} [DecidableEq ι] [DecidableEq κ] [Fintype ι] [Fintype κ]
variable {lim : QueueLimits} {single : Bool} {s s' : MonitorState ι κ α} {action : MonitorAction ι κ}

/-- A consumer outside QUEUE_get stays outside while others move. -/
theorem MonitorMove.readers_awake (move : MonitorMove lim single s action s') {u : ι} (up : s.readers u = .awake)
    (other : ∀ woken fresh, action ≠ .get u woken fresh) : s'.readers u = .awake := by
  cases move with
  | @getSleep t woken fresh =>
    have apart : u ≠ t := by intro same; subst same; exact other woken fresh rfl
    simpa [WaitSet.sleep, apart] using up
  | @get t woken fresh =>
    have apart : u ≠ t := by intro same; subst same; exact other woken fresh rfl
    simpa [WaitSet.leave, apart] using up
  | add _ _ _ can =>
    have outside : u ∉ _ := fun member => by
      have asleep := can.1 member
      rw [WaitSet.mem_sleepers, up] at asleep
      cases asleep
    simpa [WaitSet.signal, outside] using up
  | @wakeReader t down =>
    have apart : u ≠ t := by intro same; subst same; rw [up] at down; cases down
    simpa [WaitSet.wakeup, apart] using up
  | addSleep => exact up
  | wakeWriter => exact up
  | countDispatched => exact up
  | registerCompletion => exact up

/-- A consumer that has popped a task is outside QUEUE_get. -/
theorem MonitorMove.readers_popped {t : ι} {woken : Finset κ} {fresh : Nat} {task : α}
    (move : MonitorMove lim single s (.get t woken fresh) s') (popped : s'.popped = s.popped ++ [(t, task)]) :
    s'.readers t = .awake := by
  cases move with
  | getSleep => simp at popped
  | get => simp [WaitSet.leave]

theorem MonitorMove.dispatched (move : MonitorMove lim single s action s') (count : action ≠ .countDispatched)
    (complete : action ≠ .registerCompletion) : s'.queue.dispatched = s.queue.dispatched := by
  cases move with
  | get up known can body => exact queueGetSection_dispatched body
  | add pending up known can body => exact queueAddSection_dispatched body
  | countDispatched => exact absurd rfl count
  | registerCompletion => exact absurd rfl complete
  | getSleep => rfl
  | addSleep => rfl
  | wakeReader => rfl
  | wakeWriter => rfl

theorem MonitorMove.popped_same (move : MonitorMove lim single s action s')
    (other : ∀ t woken fresh, action ≠ .get t woken fresh) : s'.popped = s.popped := by
  cases move with
  | getSleep => rfl
  | get => exact absurd rfl (other _ _ _)
  | add => rfl
  | addSleep => rfl
  | wakeReader => rfl
  | wakeWriter => rfl
  | countDispatched => rfl
  | registerCompletion => rfl

/-- What is added comes out of what the producers have still to add. -/
theorem MonitorMove.supply (move : MonitorMove lim single s action s') (p : α → Bool) :
    s'.added.countP p + ∑ j, (s'.todo j).countP p = s.added.countP p + ∑ j, (s.todo j).countP p := by
  cases move with
  | @add t woken fresh task rest queue pending =>
    have moved := sum_update_add (List.countP p) s.todo t rest
    rw [pending, List.countP_cons] at moved
    dsimp only
    rw [List.countP_append, List.countP_singleton]
    omega
  | getSleep => rfl
  | get => rfl
  | addSleep => rfl
  | wakeReader => rfl
  | wakeWriter => rfl
  | countDispatched => rfl
  | registerCompletion => rfl

/-- A producer that has nothing left to add stays so. -/
theorem MonitorMove.todo_nil {j : κ} (move : MonitorMove lim single s action s') (done : s.todo j = []) :
    s'.todo j = [] := by
  cases move with
  | @add t woken fresh task rest queue pending =>
    have apart : j ≠ t := by
      intro same
      subst same
      rw [done] at pending
      cases pending
    simpa [apart] using done
  | getSleep => exact done
  | get => exact done
  | addSleep => exact done
  | wakeReader => exact done
  | wakeWriter => exact done
  | countDispatched => exact done
  | registerCompletion => exact done

/-- A single producer adds its tasks in its own order. -/
theorem MonitorMove.sequence {s s' : MonitorState ι Unit α} {action : MonitorAction ι Unit}
    (move : MonitorMove lim single s action s') : s'.added ++ s'.todo () = s.added ++ s.todo () := by
  cases move with
  | @add t woken fresh task rest queue pending =>
    have mine : s.todo () = task :: rest := pending
    simp [mine]
  | getSleep => rfl
  | get => rfl
  | addSleep => rfl
  | wakeReader => rfl
  | wakeWriter => rfl
  | countDispatched => rfl
  | registerCompletion => rfl

end Moves

variable {τ Λ μ κ : Type} {n : Nat} [DecidableEq κ] [Fintype κ]
variable {cfg : PoolConfig κ τ Λ μ} {s s' : PoolState n κ τ Λ μ} {action : PoolAction n κ}

/-- The share of a worker in `dispatched`: the wrappers between the two counter updates. -/
def WorkerState.counted : WorkerState τ Λ → Int
  | .switching _ | .running _ _ | .completing _ => 1
  | _ => 0

/-- How many kill wrappers a worker has popped. -/
def WorkerState.killed : WorkerState τ Λ → Nat
  | .popped tw | .switching tw | .completing tw => if tw.isKill then 1 else 0
  | .exited => 1
  | _ => 0

/-- The task that a worker has popped and not yet completed. -/
def WorkerState.inflight : WorkerState τ Λ → Multiset τ
  | .popped tw | .switching tw => tw.task?.toList
  | .running task _ => {task}
  | _ => 0

/-- Workers before their creation, and main in WP_join. -/
structure PoolOrder (cfg : PoolConfig κ τ Λ μ) (s : PoolState n κ τ Λ μ) : Prop where
  created : s.created ≤ n
  notCreated : ∀ w : Fin n, s.workers w = .notCreated ↔ s.created ≤ w
  joined : s.joined ≤ n
  exited : ∀ w : Fin n, w < s.joined → (s.workers w).isExited = true
  finished : 0 < s.joined → s.monitor.todo cfg.main = []

omit [DecidableEq κ] [Fintype κ] in
/-- The worker that WP_create creates next. -/
theorem PoolOrder.fresh (order : PoolOrder cfg s) (below : s.created < n) :
    s.workers ⟨s.created, below⟩ = .notCreated :=
  (order.notCreated _).mpr (Nat.le_refl _)

omit [DecidableEq κ] [Fintype κ] in
/-- The step of a worker that has been created and has not exited. -/
theorem PoolOrder.worker (order : PoolOrder cfg s) {w : Fin n} {state next : WorkerState τ Λ}
    (here : s.workers w = state) (running : state ≠ .notCreated ∧ state.isExited = false)
    (workers : s'.workers = Function.update s.workers w next) (started : next ≠ .notCreated)
    (created : s'.created = s.created) (joined : s'.joined = s.joined)
    (todo : s.monitor.todo cfg.main = [] → s'.monitor.todo cfg.main = []) : PoolOrder cfg s' := by
  refine ⟨by rw [created]; exact order.created, ?_, by rw [joined]; exact order.joined, ?_, ?_⟩
  · intro u
    rw [workers, created, ← order.notCreated u]
    by_cases same : u = w
    · subst same
      simp [started, here, running.1]
    · rw [Function.update_of_ne same]
  · intro u below
    rw [joined] at below
    have gone := order.exited u below
    have apart : u ≠ w := by
      intro same
      rw [same, here, running.2] at gone
      cases gone
    rw [workers, Function.update_of_ne apart]
    exact gone
  · intro some
    exact todo (order.finished (joined ▸ some))

theorem PoolOrder.move (order : PoolOrder cfg s) (move : PoolMove cfg s action s') : PoolOrder cfg s' := by
  have ⟨created, notCreated, joined, exited, finished⟩ := order
  cases move with
  | create below =>
    refine ⟨below, ?_, joined, ?_, finished⟩
    · intro u
      by_cases same : u = ⟨s.created, below⟩
      · subst same
        simp
      · have apart : (u : Nat) ≠ s.created := fun equal => same (Fin.ext equal)
        simp only [Function.update_of_ne same, notCreated u]
        omega
    · intro u before
      have gone := exited u before
      have apart : u ≠ ⟨s.created, below⟩ := by
        intro same
        rw [same, order.fresh below] at gone
        cases gone
      simpa [apart] using gone
  | add _ move => exact ⟨created, notCreated, joined, exited, fun some => move.todo_nil (finished some)⟩
  | getSleep _ move => exact ⟨created, notCreated, joined, exited, fun some => move.todo_nil (finished some)⟩
  | get here move => exact order.worker here ⟨nofun, rfl⟩ rfl nofun rfl rfl move.todo_nil
  | dispatch here => exact order.worker here ⟨nofun, rfl⟩ rfl nofun rfl rfl id
  | switchKill here => exact order.worker here ⟨nofun, rfl⟩ rfl nofun rfl rfl id
  | switchExec here => exact order.worker here ⟨nofun, rfl⟩ rfl nofun rfl rfl id
  | run here => exact order.worker here ⟨nofun, rfl⟩ rfl nofun rfl rfl id
  | returned here => exact order.worker here ⟨nofun, rfl⟩ rfl nofun rfl rfl id
  | complete here => exact order.worker here ⟨nofun, rfl⟩ rfl (by split <;> nofun) rfl rfl id
  | join below _ done gone =>
    refine ⟨created, notCreated, below, ?_, fun _ => done⟩
    intro u before
    rcases Nat.lt_succ_iff_lt_or_eq.mp before with earlier | last
    · exact exited u earlier
    · have here : u = ⟨s.joined, below⟩ := Fin.ext last
      rw [here]
      exact gone
  | wakeWorker move => exact ⟨created, notCreated, joined, exited, fun some => move.todo_nil (finished some)⟩
  | wakeProducer move => exact ⟨created, notCreated, joined, exited, fun some => move.todo_nil (finished some)⟩

theorem pool_order (reach : (poolSystem cfg n).Reach s) : PoolOrder cfg s := by
  refine pool_invariant (I := PoolOrder cfg) ?_ ?_ reach
  · intro fresh
    exact ⟨Nat.zero_le _, fun _ => iff_of_true rfl (Nat.zero_le _), Nat.zero_le _,
      fun _ below => absurd below (Nat.not_lt_zero _), fun some => absurd some (Nat.lt_irrefl _)⟩
  · exact fun _ _ _ _ order move => order.move move

/-- A worker is in the wait loop of QUEUE_get only while it is getting. -/
theorem pool_waiting (reach : (poolSystem cfg n).Reach s) :
    ∀ w, (s.workers w).isGetting = false → s.monitor.readers w = .awake := by
  refine pool_invariant (I := fun s => ∀ w, (s.workers w).isGetting = false → s.monitor.readers w = .awake) ?_ ?_ reach
  · exact fun _ _ _ => rfl
  · intro s action s' reach waiting move
    have leave {w : Fin n} {state : WorkerState τ Λ} (here : s.workers w = state) (out : state.isGetting = false)
        (next : WorkerState τ Λ) :
        ∀ u, (Function.update s.workers w next u).isGetting = false → s.monitor.readers u = .awake := by
      intro u outside
      by_cases same : u = w
      · exact waiting u (by rw [same, here, out])
      · rw [Function.update_of_ne same] at outside
        exact waiting u outside
    cases move with
    | create below => exact leave ((pool_order reach).fresh below) rfl _
    | add _ move => exact fun u outside => move.readers_awake (waiting u outside) nofun
    | @getSleep w woken fresh monitor here move =>
      intro u outside
      refine move.readers_awake (waiting u outside) fun woken' fresh' same => ?_
      cases same
      rw [here] at outside
      cases outside
    | @get w woken fresh monitor tw here move popped =>
      intro u outside
      by_cases same : u = w
      · rw [same]
        exact move.readers_popped popped
      · have before : (s.workers u).isGetting = false := by simpa [same] using outside
        exact move.readers_awake (waiting u before) fun _ _ equal => same (by cases equal; rfl)
    | dispatch here => exact leave here rfl _
    | switchKill here => exact leave here rfl _
    | switchExec here => exact leave here rfl _
    | run here => exact leave here rfl _
    | returned here => exact leave here rfl _
    | complete here => exact leave here rfl _
    | join => exact waiting
    | wakeWorker move => exact fun u outside => move.readers_awake (waiting u outside) nofun
    | wakeProducer move => exact fun u outside => move.readers_awake (waiting u outside) nofun

/-- `dispatched` counts the workers between their two updates of it. -/
theorem pool_dispatched (reach : (poolSystem cfg n).Reach s) :
    s.monitor.queue.dispatched = ∑ w, (s.workers w).counted := by
  refine pool_invariant (I := fun s => s.monitor.queue.dispatched = ∑ w, (s.workers w).counted) ?_ ?_ reach
  · intro fresh
    simp [PoolState.start, MonitorState.start, queueCreate, WorkerState.counted]
  · intro s action s' reach counted move
    have moved {w : Fin n} {state : WorkerState τ Λ} (here : s.workers w = state) (next : WorkerState τ Λ) :
        (∑ u, (Function.update s.workers w next u).counted) + state.counted =
          s.monitor.queue.dispatched + next.counted := by
      rw [counted, ← here]
      exact sum_update_add WorkerState.counted s.workers w next
    cases move with
    | create below =>
      have step := moved ((pool_order reach).fresh below) .getting
      simpa [WorkerState.counted] using step.symm
    | add _ move => exact (move.dispatched (by simp) (by simp)).trans counted
    | getSleep _ move => exact (move.dispatched (by simp) (by simp)).trans counted
    | @get w woken fresh monitor tw here move =>
      have step := moved here (.popped tw)
      rw [move.dispatched (by simp) (by simp)]
      simpa [WorkerState.counted] using step.symm
    | @dispatch w tw here =>
      have step := moved here (.switching tw)
      simpa [WorkerState.counted, queueCountDispatched] using step.symm
    | switchKill here =>
      have step := moved here (.completing .kill)
      simpa [WorkerState.counted] using step.symm
    | @switchExec w task here =>
      have step := moved here (.running task (cfg.func.enter task))
      simpa [WorkerState.counted] using step.symm
    | @run w task loc loc' memory here =>
      have step := moved here (.running task loc')
      simpa [WorkerState.counted] using step.symm
    | @returned w task loc here =>
      have step := moved here (.completing (.exec task))
      simpa [WorkerState.counted] using step.symm
    | @complete w tw here =>
      have step := moved here (if tw.isKill then .exited else .getting)
      have free : (if tw.isKill then .exited else .getting : WorkerState τ Λ).counted = 0 := by split <;> rfl
      rw [free] at step
      simp only [WorkerState.counted, queueRegisterCompletion] at step ⊢
      omega
    | join => exact counted
    | wakeWorker move => exact (move.dispatched (by simp) (by simp)).trans counted
    | wakeProducer move => exact (move.dispatched (by simp) (by simp)).trans counted

/-- The tasks that the workers have taken: those completed and those in progress. -/
def PoolState.taken (s : PoolState n κ τ Λ μ) : Multiset τ := s.completed + ∑ w, (s.workers w).inflight

/-- Kill wrappers and tasks change hands only where a worker pops a wrapper. -/
theorem PoolMove.account (order : PoolOrder cfg s) (move : PoolMove cfg s action s') :
    (s'.monitor.popped = s.monitor.popped ∧ (∀ u, (s'.workers u).killed = (s.workers u).killed) ∧ s'.taken = s.taken) ∨
    ∃ w tw, s.workers w = .getting ∧ s'.workers = Function.update s.workers w (.popped tw) ∧
      s'.completed = s.completed ∧ s'.monitor.popped = s.monitor.popped ++ [(w, tw)] := by
  have same {w : Fin n} {state next : WorkerState τ Λ} (here : s.workers w = state)
    (kills : next.killed = state.killed) :
      ∀ u, (Function.update s.workers w next u).killed = (s.workers u).killed := by
    intro u
    by_cases equal : u = w
    · rw [equal, Function.update_self, here, kills]
    · rw [Function.update_of_ne equal]
  have carried {w : Fin n} {state next : WorkerState τ Λ} (here : s.workers w = state)
      (tasks : next.inflight = state.inflight) :
      (s.completed : Multiset τ) + ∑ u, (Function.update s.workers w next u).inflight = s.taken := by
    unfold PoolState.taken
    rw [sum_update_same WorkerState.inflight s.workers (tasks.trans (congrArg _ here.symm))]
  cases move with
  | create below =>
    have here := order.fresh below
    exact Or.inl ⟨rfl, same here rfl, carried here rfl⟩
  | add _ move => exact Or.inl ⟨move.popped_same nofun, fun _ => rfl, rfl⟩
  | getSleep _ _ popped => exact Or.inl ⟨popped, fun _ => rfl, rfl⟩
  | get here _ popped => exact Or.inr ⟨_, _, here, rfl, rfl, popped⟩
  | dispatch here => exact Or.inl ⟨rfl, same here rfl, carried here rfl⟩
  | switchKill here => exact Or.inl ⟨rfl, same here rfl, carried here rfl⟩
  | switchExec here => exact Or.inl ⟨rfl, same here rfl, carried here rfl⟩
  | run here => exact Or.inl ⟨rfl, same here rfl, carried here rfl⟩
  | @returned w task loc here =>
    refine Or.inl ⟨rfl, same here rfl, ?_⟩
    have moved : (∑ u, (Function.update s.workers w (.completing (.exec task)) u).inflight) + {task} =
        (∑ u, (s.workers u).inflight) + 0 := by
      have step := sum_update_add WorkerState.inflight s.workers w (.completing (.exec task))
      rw [here] at step
      exact step
    simp only [PoolState.taken]
    rw [← Multiset.coe_add, ← add_zero (∑ u, (s.workers u).inflight), ← moved, Multiset.coe_singleton]
    ac_rfl
  | @complete w tw here =>
    refine Or.inl ⟨rfl, same here ?_, carried here ?_⟩
    · cases tw <;> rfl
    · cases tw <;> rfl
  | join => exact Or.inl ⟨rfl, fun _ => rfl, rfl⟩
  | wakeWorker move => exact Or.inl ⟨move.popped_same nofun, fun _ => rfl, rfl⟩
  | wakeProducer move => exact Or.inl ⟨move.popped_same nofun, fun _ => rfl, rfl⟩

/-- What the workers have done with the wrappers popped so far. Every kill wrapper belongs to
the worker that is about to exit because of it, every task is completed or in progress, and
once no worker is left to pop anything the last wrapper popped was a kill. -/
structure PoolAccount (s : PoolState n κ τ Λ μ) : Prop where
  kills : ∀ w, (s.monitor.popped.countP fun p => p.1 = w ∧ p.2.isKill) = (s.workers w).killed
  tasks : (tasksOf (s.monitor.popped.map Prod.snd) : Multiset τ) = s.taken
  last : 0 < n → (∀ w, (s.workers w).killed = 1) → ∃ before w, s.monitor.popped = before ++ [(w, .kill)]

omit [DecidableEq κ] [Fintype κ] in
theorem PoolAccount.start (cfg : PoolConfig κ τ Λ μ) (n fresh : Nat) : PoolAccount (.start cfg n fresh) where
  kills _ := rfl
  tasks := by simp [PoolState.start, MonitorState.start, PoolState.taken, tasksOf, WorkerState.inflight]
  last positive all := absurd (all ⟨0, positive⟩) nofun

theorem PoolAccount.move (account : PoolAccount s) (order : PoolOrder cfg s) (move : PoolMove cfg s action s') :
    PoolAccount s' := by
  rcases move.account order with ⟨popped, killed, taken⟩ | ⟨w, tw, getting, workers, completed, popped⟩
  · refine ⟨?_, ?_, ?_⟩
    · intro w
      rw [popped, killed, account.kills]
    · rw [popped, taken, account.tasks]
    · intro positive all
      rw [popped]
      exact account.last positive fun w => (killed w).symm.trans (all w)
  · refine ⟨?_, ?_, ?_⟩
    · intro u
      rw [popped, workers, List.countP_append, List.countP_singleton, account.kills]
      by_cases same : u = w
      · subst same
        cases tw <;> simp [getting, WorkerState.killed, TaskWrapper.isKill]
      · simp [same, Ne.symm same]
    · have moved := sum_update_add WorkerState.inflight s.workers w (.popped tw)
      rw [getting, show (WorkerState.getting : WorkerState τ Λ).inflight = 0 from rfl, add_zero] at moved
      have tasks := account.tasks
      unfold PoolState.taken at tasks ⊢
      rw [workers, completed, moved, popped, List.map_append, tasksOf, List.filterMap_append, ← Multiset.coe_add]
      rw [← tasksOf, tasks, add_assoc]
      cases tw <;> rfl
    · intro positive all
      have mine := all w
      rw [workers, Function.update_self] at mine
      cases tw with
      | exec task => cases mine
      | kill => exact ⟨_, w, popped⟩

theorem pool_account (reach : (poolSystem cfg n).Reach s) : PoolAccount s :=
  pool_invariant (fun fresh => .start cfg n fresh)
    (fun _ _ _ reach account move => account.move (pool_order reach) move)
    reach

end PCProject
