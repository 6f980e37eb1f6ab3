import PCProject.WorkerPool
import PCProject.QueueWakeups

namespace PCProject
variable {τ Λ μ κ : Type} {n : Nat} [DecidableEq κ] [Fintype κ]
variable {cfg : PoolConfig κ τ Λ μ} {s s' : PoolState n κ τ Λ μ} {action : PoolAction n κ}

/-- What one step of the pool can do. -/
inductive PoolMove (cfg : PoolConfig κ τ Λ μ) (s : PoolState n κ τ Λ μ) :
    PoolAction n κ → PoolState n κ τ Λ μ → Prop
  | create (below : s.created < n) : PoolMove cfg s .create
      { s with workers := Function.update s.workers ⟨s.created, below⟩ .getting, created := s.created + 1 }
  | add {j woken fresh monitor} : s.created = n →
      MonitorMove cfg.limits cfg.single s.monitor (.add j woken fresh) monitor →
      PoolMove cfg s (.add j woken fresh) { s with monitor := monitor }
  | getSleep {w woken fresh monitor} : s.workers w = .getting →
      MonitorMove cfg.limits cfg.single s.monitor (.get w woken fresh) monitor →
      monitor.popped = s.monitor.popped → PoolMove cfg s (.get w woken fresh) { s with monitor := monitor }
  | get {w woken fresh monitor tw} : s.workers w = .getting →
      MonitorMove cfg.limits cfg.single s.monitor (.get w woken fresh) monitor →
      monitor.popped = s.monitor.popped ++ [(w, tw)] →
      PoolMove cfg s (.get w woken fresh)
        { s with monitor := monitor, workers := Function.update s.workers w (.popped tw) }
  | dispatch {w tw} : s.workers w = .popped tw → PoolMove cfg s (.worker w)
      { s with
        monitor := { s.monitor with queue := queueCountDispatched s.monitor.queue }
        workers := Function.update s.workers w (.switching tw) }
  | switchKill {w} : s.workers w = .switching .kill → PoolMove cfg s (.worker w)
      { s with workers := Function.update s.workers w (.completing .kill) }
  | switchExec {w task} : s.workers w = .switching (.exec task) → PoolMove cfg s (.worker w)
      { s with workers := Function.update s.workers w (.running task (cfg.func.enter task)) }
  | run {w task loc loc' memory} : s.workers w = .running task loc →
      cfg.func.step loc s.memory = some (loc', memory) → PoolMove cfg s (.worker w)
      { s with workers := Function.update s.workers w (.running task loc'), memory := memory }
  | returned {w task loc} : s.workers w = .running task loc → cfg.func.step loc s.memory = none →
      PoolMove cfg s (.worker w)
        { s with
          workers := Function.update s.workers w (.completing (.exec task)), completed := s.completed ++ [task] }
  | complete {w tw} : s.workers w = .completing tw → PoolMove cfg s (.worker w)
      { s with
        monitor := { s.monitor with queue := queueRegisterCompletion s.monitor.queue }
        workers := Function.update s.workers w (if tw.isKill then .exited else .getting) }
  | join (below : s.joined < n) : s.created = n → s.monitor.todo cfg.main = [] →
      (s.workers ⟨s.joined, below⟩).isExited = true → PoolMove cfg s .join { s with joined := s.joined + 1 }
  | wakeWorker {w monitor} : MonitorMove cfg.limits cfg.single s.monitor (.wakeReader w) monitor →
      PoolMove cfg s (.wakeWorker w) { s with monitor := monitor }
  | wakeProducer {j monitor} : MonitorMove cfg.limits cfg.single s.monitor (.wakeWriter j) monitor →
      PoolMove cfg s (.wakeProducer j) { s with monitor := monitor }

theorem workerStep_move {w : Fin n} (step : workerStep cfg s w = some s') : PoolMove cfg s (.worker w) s' := by
  unfold workerStep at step
  split at step
  · cases step; exact .dispatch (by assumption)
  · cases step; exact .switchKill (by assumption)
  · cases step; exact .switchExec (by assumption)
  · split at step
    · cases step; exact .run (by assumption) (by assumption)
    · cases step; exact .returned (by assumption) (by assumption)
  · cases step; exact .complete (by assumption)
  · cases step

theorem poolStep_move (step : poolStep cfg s action = some s') : PoolMove cfg s action s' := by
  cases action with
  | create =>
    simp only [poolStep] at step
    split at step
    · cases step; exact .create (by assumption)
    · cases step
  | add j woken fresh =>
    simp only [poolStep] at step
    split at step
    · obtain ⟨monitor, run, rfl⟩ := Option.map_eq_some_iff.mp step
      exact .add (by assumption) (monitorStep_iff.mp run)
    · cases step
  | get w woken fresh =>
    simp only [poolStep] at step
    split at step
    · rename_i getting
      obtain ⟨⟨result, monitor⟩, run, step⟩ := Option.bind_eq_some_iff.mp step
      obtain ⟨move, popped⟩ := monitorGet_move run
      cases result with
      | none => cases step; exact .getSleep getting move (by simpa using popped)
      | some tw => cases step; exact .get getting move (by simpa using popped)
    · cases step
  | worker w => exact workerStep_move step
  | join =>
    simp only [poolStep] at step
    split at step
    · rename_i ready
      split at step
      · split at step
        · cases step; exact .join (by assumption) ready.1 (List.isEmpty_iff.mp ready.2) (by assumption)
        · cases step
      · cases step
    · cases step
  | wakeWorker w =>
    obtain ⟨monitor, run, rfl⟩ := Option.map_eq_some_iff.mp step
    exact .wakeWorker (monitorStep_iff.mp run)
  | wakeProducer j =>
    obtain ⟨monitor, run, rfl⟩ := Option.map_eq_some_iff.mp step
    exact .wakeProducer (monitorStep_iff.mp run)

/-- The pool moves its queue only by steps of the queue. -/
theorem PoolMove.monitor (move : PoolMove cfg s action s') :
    s'.monitor = s.monitor ∨ ∃ b, MonitorMove cfg.limits cfg.single s.monitor b s'.monitor := by
  cases move with
  | create => exact Or.inl rfl
  | add _ move => exact Or.inr ⟨_, move⟩
  | getSleep _ move => exact Or.inr ⟨_, move⟩
  | get _ move => exact Or.inr ⟨_, move⟩
  | dispatch => exact Or.inr ⟨_, .countDispatched⟩
  | switchKill => exact Or.inl rfl
  | switchExec => exact Or.inl rfl
  | run => exact Or.inl rfl
  | returned => exact Or.inl rfl
  | complete => exact Or.inr ⟨_, .registerCompletion⟩
  | join => exact Or.inl rfl
  | wakeWorker move => exact Or.inr ⟨_, move⟩
  | wakeProducer move => exact Or.inr ⟨_, move⟩

/-- Forgetting the workers leaves a run of the queue with its threads. -/
theorem pool_monitor_reach (reach : (poolSystem cfg n).Reach s) :
    (monitorSystem cfg.limits cfg.single (Fin n) κ (TaskWrapper τ)).Reach s.monitor := by
  refine reach.project PoolState.monitor ?_ ?_
  · intro s initial
    obtain ⟨fresh, rfl⟩ := initial
    exact ⟨fresh, _, rfl⟩
  · intro before action after _ step
    rcases (poolStep_move step).monitor with same | ⟨b, move⟩
    · exact Or.inl same
    · exact Or.inr ⟨b, monitorStep_iff.mpr move⟩

/-- An invariant of the pool, from what one move preserves. -/
theorem pool_invariant {I : PoolState n κ τ Λ μ → Prop} (start : ∀ fresh, I (.start cfg n fresh))
    (keep : ∀ s action s', (poolSystem cfg n).Reach s → I s → PoolMove cfg s action s' → I s')
    (reach : (poolSystem cfg n).Reach s) : I s := by
  refine reach.invariant ?_ fun before action after reached inv step =>
    keep before action after reached inv (poolStep_move step)
  intro s initial
  obtain ⟨fresh, rfl⟩ := initial
  exact start fresh

end PCProject
