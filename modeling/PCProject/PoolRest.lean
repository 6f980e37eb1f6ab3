import PCProject.PoolEffort
import PCProject.PoolProgress
import PCProject.StopTokens

namespace PCProject

/-- The tasks of a producer's WP_enqueue_task calls. -/
def Request.task? {τ : Type} : Request τ → Option τ
  | .enqueueTask task => some task
  | .requestStop => none

theorem tasksOf_program {τ : Type} (threadCount : Nat) (program : List (Request τ)) :
    tasksOf (program.flatMap (Request.wrappers threadCount)) = program.filterMap Request.task? := by
  induction program with
  | nil => rfl
  | cons request rest ih =>
    rw [List.flatMap_cons, tasksOf_append, ih, List.filterMap_cons]
    cases request with
    | enqueueTask task => rfl
    | requestStop => rw [Request.wrappers, tasksOf_kills]; rfl

section Monitor
variable {ι κ τ : Type} [DecidableEq ι] [DecidableEq κ] [Fintype ι] [Fintype κ]
variable {lim : QueueLimits} {single : Bool} {s s' : MonitorState ι κ (TaskWrapper τ)} {action : MonitorAction ι κ}

/-- The tasks that are added come out of what the producers have still to add. -/
theorem MonitorMove.tasks (move : MonitorMove lim single s action s') :
    (tasksOf s'.added : Multiset τ) + ∑ j, (tasksOf (s'.todo j) : Multiset τ) =
      tasksOf s.added + ∑ j, (tasksOf (s.todo j) : Multiset τ) := by
  cases move with
  | @add t woken fresh task rest queue pending =>
    have moved := sum_update_add (fun tws : List (TaskWrapper τ) => (tasksOf tws : Multiset τ)) s.todo t rest
    have split : tasksOf (task :: rest) = tasksOf [task] ++ tasksOf rest := tasksOf_append [task] rest
    rw [pending, split, ← Multiset.coe_add, ← add_assoc] at moved
    have added : (tasksOf (s.added ++ [task]) : Multiset τ) = tasksOf s.added + tasksOf [task] := by
      rw [tasksOf_append, Multiset.coe_add]
    have left := add_right_cancel moved
    dsimp only
    rw [added, add_assoc, ← left, add_comm (tasksOf [task] : Multiset τ)]
  | getSleep => rfl
  | get => rfl
  | addSleep => rfl
  | wakeReader => rfl
  | wakeWriter => rfl
  | countDispatched => rfl
  | registerCompletion => rfl

/-- A producer is in the wait of QUEUE_add only with something to add. -/
theorem monitor_pending {α : Type} {s : MonitorState ι κ α} (reach : (monitorSystem lim single ι κ α).Reach s) :
    ∀ j, s.writers j ≠ .awake → s.todo j ≠ [] := by
  refine reach.invariant (I := fun s => ∀ j, s.writers j ≠ .awake → s.todo j ≠ []) ?_ ?_
  · intro s initial j waiting
    obtain ⟨fresh, todo, rfl⟩ := initial
    exact absurd rfl waiting
  · intro s action s' _ pending step j waiting
    cases monitorStep_iff.mp step with
    | @get t woken fresh task queue up known can =>
      by_cases moved : j ∈ woken
      · exact pending j (by rw [WaitSet.mem_sleepers.mp (can.1 moved)]; simp)
      · exact pending j (by simpa [WaitSet.signal, moved] using waiting)
    | @addSleep t woken fresh task rest todo =>
      by_cases same : j = t
      · rw [same, todo]
        simp
      · exact pending j (by simpa [WaitSet.sleep, same] using waiting)
    | @add t woken fresh task rest =>
      by_cases same : j = t
      · subst same
        simp [WaitSet.leave] at waiting
      · have before := pending j (by simpa [WaitSet.leave, same] using waiting)
        simpa [same] using before
    | @wakeWriter t down =>
      by_cases same : j = t
      · exact pending j (by rw [same, down]; simp)
      · exact pending j (by simpa [WaitSet.wakeup, same] using waiting)
    | getSleep => exact pending j waiting
    | wakeReader => exact pending j waiting
    | countDispatched => exact pending j waiting
    | registerCompletion => exact pending j waiting

end Monitor

variable {τ Λ μ κ : Type} {n : Nat} [DecidableEq κ] [Fintype κ]
variable {cfg : PoolConfig κ τ Λ μ} {s : PoolState n κ τ Λ μ} {calls : Λ → Nat}

/-- The tasks of a run, added and still to be added. -/
theorem pool_tasks (reach : (poolSystem cfg n).Reach s) :
    (tasksOf s.monitor.added : Multiset τ) + ∑ j, (tasksOf (s.monitor.todo j) : Multiset τ) =
      ∑ j, ((cfg.programs j).filterMap Request.task? : Multiset τ) := by
  refine pool_invariant (I := fun s => (tasksOf s.monitor.added : Multiset τ) +
    ∑ j, (tasksOf (s.monitor.todo j) : Multiset τ) = _) ?_ ?_ reach
  · intro fresh
    have nothing : tasksOf ([] : List (TaskWrapper τ)) = [] := rfl
    simp [PoolState.start, MonitorState.start, tasksOf_program, nothing]
  · intro s action s' _ supply move
    rcases move.monitor with same | ⟨b, moved⟩
    · rw [same]
      exact supply
    · exact moved.tasks.trans supply

/-- The calls of WP_request_stop in the programs of all producers. -/
def PoolConfig.stops (cfg : PoolConfig κ τ Λ μ) : Nat := ∑ j, (cfg.programs j).countP Request.isStop

/-- The pool without a stop request at the end of its work: the workers wait for more, and WP_join for them. -/
structure PoolState.Idle (cfg : PoolConfig κ τ Λ μ) (s : PoolState n κ τ Λ μ) : Prop where
  workers : ∀ w, s.workers w = .getting ∧ s.monitor.readers w = .asleep
  producers : ∀ j, s.monitor.todo j = []
  completed : (s.completed : Multiset τ) = ∑ j, ((cfg.programs j).filterMap Request.task? : Multiset τ)
  joined : s.joined = 0

/-- The pool after its last kill wrapper. The tasks behind that wrapper stay in the queue, and a producer
that waits for room is not woken any more. -/
structure PoolState.Stopped (cfg : PoolConfig κ τ Λ μ) (s : PoolState n κ τ Λ μ) : Prop where
  workers : ∀ w, s.workers w = .exited
  completed : ∃ before after, s.monitor.added = before ++ .kill :: after ∧ killsOf before + 1 = n ∧
    s.completed.Perm (tasksOf before) ∧
    ∀ j, s.monitor.todo j = [] ∨ s.monitor.writers j = .asleep ∧ after ≠ []
  joined : s.monitor.todo cfg.main = [] → s.joined = n

theorem stuck_created (reach : (poolSystem cfg n).Reach s) (stuck : ¬CanStep cfg s) : s.created = n := by
  have bound := (pool_order reach).created
  by_contra fewer
  have below : s.created < n := by omega
  exact stuck ⟨.create, _, rfl, by simp only [poolStep, below]; rfl⟩

/-- Where nobody can take a step, no producer is on its way to QUEUE_add. -/
theorem stuck_producers (reach : (poolSystem cfg n).Reach s) (stuck : ¬CanStep cfg s) :
    s.monitor.writers.signalled = ∅ ∧ ∀ j, s.monitor.todo j = [] ∨ s.monitor.writers j = .asleep := by
  have all := stuck_created reach stuck
  have places (j : κ) : s.monitor.todo j = [] ∨ s.monitor.writers j = .asleep := by
    by_contra otherwise
    rw [not_or] at otherwise
    exact stuck (CanStep.add reach all otherwise.1 otherwise.2)
  refine ⟨Finset.eq_empty_of_forall_notMem fun j member => ?_, places⟩
  have signalled := WaitSet.mem_signalled.mp member
  rcases places j with done | asleep
  · exact monitor_pending (pool_monitor_reach reach) j (by simp [signalled]) done
  · rw [signalled] at asleep
    cases asleep

/-- A worker that waits where nobody can take a step waits for good: there is nothing left to pop, and no
WP_request_stop among the programs. -/
theorem stuck_waiting (reach : (poolSystem cfg n).Reach s) (stuck : ¬CanStep cfg s) {w : Fin n}
    (waiting : s.workers w = .getting ∧ s.monitor.readers w = .asleep) : cfg.stops = 0 ∧ s.Idle cfg := by
  have all := stuck_created reach stuck
  obtain ⟨noWriter, producers⟩ := stuck_producers reach stuck
  have noReader := stuck_signalled reach all stuck
  obtain ⟨cs, content, inv⟩ := monitor_inv (pool_monitor_reach reach)
  have sleeper : s.monitor.readers.sleepers.Nonempty := ⟨w, WaitSet.mem_sleepers.mpr waiting.2⟩
  have empty : content = [] := by
    have covered := inv.readers sleeper
    rw [noReader, Finset.card_empty] at covered
    exact List.length_eq_zero_iff.mp (Nat.le_zero.mp covered)
  have done (j : κ) : s.monitor.todo j = [] := by
    refine (producers j).resolve_right fun asleep => ?_
    exact inv.not_all_asleep sleeper ⟨j, WaitSet.mem_sleepers.mpr asleep⟩ noReader noWriter
  have popped := inv.order
  rw [empty, List.append_nil] at popped
  have fewer : ∑ w, (s.workers w).killed < n := by
    have strict := Finset.sum_lt_sum (fun w (_ : w ∈ Finset.univ) => (s.workers w).killed_le_one)
      ⟨w, Finset.mem_univ _, by rw [waiting.1]; exact Nat.zero_lt_one⟩
    simpa using strict
  have kills := pool_supply reach
  rw [← popped, pool_kills reach] at kills
  simp only [done, killsOf_nil, Finset.sum_const_zero, Nat.add_zero] at kills
  have none : cfg.stops = 0 := by
    by_contra some
    have one := Nat.le_mul_of_pos_right n (Nat.pos_of_ne_zero some)
    rw [PoolConfig.stops] at one
    omega
  have unkilled : ∑ w, (s.workers w).killed = 0 := by rw [kills, ← PoolConfig.stops, none, Nat.mul_zero]
  have places (u : Fin n) : s.workers u = .getting ∧ s.monitor.readers u = .asleep := by
    refine (stuck_workers reach all stuck u).resolve_left fun gone => ?_
    have mine := Finset.sum_eq_zero_iff.mp unkilled u (Finset.mem_univ u)
    rw [gone] at mine
    cases mine
  refine ⟨none, places, done, ?_, ?_⟩
  · have tasks := (pool_account reach).tasks
    have added := pool_tasks reach
    have nothing : (tasksOf ([] : List (TaskWrapper τ)) : Multiset τ) = 0 := rfl
    simp only [done, nothing, Finset.sum_const_zero, add_zero] at added
    rw [popped, added, PoolState.taken] at tasks
    simpa [places, WorkerState.inflight] using tasks.symm
  · by_contra joined
    have bound := (pool_order reach).joined
    have gone := (pool_order reach).exited ⟨0, by omega⟩ (Nat.pos_of_ne_zero joined)
    rw [(places _).1] at gone
    cases gone

/-- Once all workers have exited, the last kill wrapper that they have popped splits what was added. -/
theorem exited_split (positive : 0 < n) (reach : (poolSystem cfg n).Reach s) (gone : ∀ w, s.workers w = .exited)
    {cs : List (Nat × QueueChunk (TaskWrapper τ))} {content : List (TaskWrapper τ)}
    (inv : MonitorInv cfg.limits s.monitor cs content) :
    ∃ before, s.monitor.added = before ++ .kill :: content ∧ killsOf before + 1 = n ∧
      s.completed.Perm (tasksOf before) := by
  have account := pool_account reach
  obtain ⟨before, w, popped⟩ := account.last positive fun w => by rw [gone w]; rfl
  have split : s.monitor.popped.map Prod.snd = before.map Prod.snd ++ [.kill] := by rw [popped, List.map_append]; rfl
  have all := pool_kills reach
  simp only [gone, WorkerState.killed, Finset.sum_const, Finset.card_univ, Fintype.card_fin, smul_eq_mul,
    Nat.mul_one] at all
  have order := inv.order
  have tasks := account.tasks
  rw [split, tasksOf_append, PoolState.taken] at tasks
  have last : tasksOf [(.kill : TaskWrapper τ)] = [] := rfl
  simp only [gone, WorkerState.inflight, Finset.sum_const_zero, add_zero, last, List.append_nil] at tasks
  rw [split] at order all
  exact ⟨before.map Prod.snd, by simpa using order.symm, by simpa [TaskWrapper.isKill] using all,
    Multiset.coe_eq_coe.mp tasks.symm⟩

/-- Where all workers have exited and nobody can take a step, only producers that wait for room are left. -/
theorem stuck_exited (positive : 0 < n) (reach : (poolSystem cfg n).Reach s) (stuck : ¬CanStep cfg s)
    (gone : ∀ w, s.workers w = .exited) : 0 < cfg.stops ∧ s.Stopped cfg := by
  obtain ⟨noWriter, producers⟩ := stuck_producers reach stuck
  obtain ⟨cs, content, inv⟩ := monitor_inv (pool_monitor_reach reach)
  obtain ⟨before, added, kills, completed⟩ := exited_split positive reach gone inv
  have supply := pool_supply reach
  rw [added, killsOf_append] at supply
  have last : killsOf ((.kill : TaskWrapper τ) :: content) = killsOf content + 1 :=
    List.countP_cons_of_pos rfl
  refine ⟨?_, gone, ⟨before, content, added, kills, completed, fun j => ?_⟩, fun done => ?_⟩
  · by_contra none
    rw [show ∑ j, (cfg.programs j).countP Request.isStop = 0 from Nat.eq_zero_of_not_pos none] at supply
    omega
  · refine (producers j).imp_right fun asleep => ⟨asleep, fun empty => ?_⟩
    have covered := inv.writers ⟨j, WaitSet.mem_sleepers.mpr asleep⟩
    rw [if_pos empty, noWriter, Finset.card_empty] at covered
    omega
  · by_contra unjoined
    have bound := (pool_order reach).joined
    have below : s.joined < n := by omega
    refine stuck ⟨.join, { s with joined := s.joined + 1 }, rfl, ?_⟩
    simp [poolStep, stuck_created reach stuck, done, below, gone, WorkerState.isExited]

/-- The effort falls until nobody can take a step. -/
theorem pool_rests (returns : cfg.Returns n calls) (reach : (poolSystem cfg n).Reach s) :
    ∃ schedule t, (poolSystem cfg n).exec s schedule = some t ∧ (∀ action ∈ schedule, action.isWakeup = false) ∧
      ¬CanStep cfg t := by
  obtain ⟨schedule, t, run, own, rest⟩ :=
    reach.rests (fun action => !action.isWakeup) (PoolState.effort cfg.func calls)
      fun s action s' reach own step => by
        have paid := (poolStep_move step).effort returns reach
        have kind : action.isWakeup = false := by simpa using own
        rw [kind] at paid
        simp only [Bool.not_false, Bool.toNat_true, Bool.toNat_false] at paid
        omega
  refine ⟨schedule, t, run, fun action member => by simpa using own action member, ?_⟩
  rintro ⟨action, next, kind, step⟩
  have none := rest action (by simp [kind])
  rw [show (poolSystem cfg n).step t action = poolStep cfg t action from rfl, step] at none
  cases none

end PCProject
