import PCProject.PoolEndState

namespace PCProject
variable {τ Λ μ : Type} {n : Nat}

/-- A proof about the function of a pool and some tasks that run concurrently. `shared` holds
of the memory at all times, `running` of a task that a worker executes, and `done` of a task
that is completed. A step of one task keeps what is known about every other task. -/
structure TaskProof (func : TaskFunc τ Λ μ) (tasks : List τ) where
  shared : μ → Prop
  running : τ → Λ → μ → Prop
  done : τ → μ → Prop
  enter : ∀ task ∈ tasks, ∀ memory, shared memory → running task (func.enter task) memory
  step : ∀ task ∈ tasks, ∀ loc memory loc' memory', shared memory → running task loc memory →
    func.step loc memory = some (loc', memory') → shared memory' ∧ running task loc' memory'
  returns : ∀ task ∈ tasks, ∀ loc memory, shared memory → running task loc memory →
    func.step loc memory = none → done task memory
  others : ∀ task ∈ tasks, ∀ other ∈ tasks, task ≠ other → ∀ loc memory loc' memory', shared memory →
    running task loc memory → func.step loc memory = some (loc', memory') →
    (∀ place, running other place memory → running other place memory') ∧ (done other memory → done other memory')

variable {limits : QueueLimits} {single : Bool} {func : TaskFunc τ Λ μ} {tasks : List τ} {memory : μ}
  {s : PoolState n Unit τ Λ μ}

/-- The tasks taken so far are the first tasks of the producer. -/
theorem pool_taken_prefix (reach : (poolSystem (singleProducer limits single func tasks memory) n).Reach s) :
    ∃ first rest : List τ, s.taken = first ∧ first ++ rest = tasks := by
  obtain ⟨cs, content, inv⟩ := monitor_inv (pool_monitor_reach reach)
  have followed := congrArg tasksOf (pool_script reach)
  rw [← inv.order, tasksOf_append, tasksOf_append, script, tasksOf_append, tasksOf_tasks, tasksOf_kills,
    List.append_nil, List.append_assoc] at followed
  exact ⟨_, _, (pool_account reach).tasks.symm, followed⟩

theorem pool_taken_known (reach : (poolSystem (singleProducer limits single func tasks memory) n).Reach s) {task : τ}
    (member : task ∈ s.taken) : task ∈ tasks := by
  obtain ⟨first, rest, taken, split⟩ := pool_taken_prefix reach
  rw [taken] at member
  rw [← split]
  exact List.mem_append_left rest member

section Taken
variable {κ : Type} {s : PoolState n κ τ Λ μ}

theorem PoolState.mem_taken {w : Fin n} {task : τ} (mine : task ∈ (s.workers w).inflight) : task ∈ s.taken :=
  Multiset.mem_add.mpr (Or.inr (Multiset.mem_sum.mpr ⟨w, Finset.mem_univ w, mine⟩))

theorem PoolState.running_inflight {w : Fin n} {task : τ} {loc : Λ} (here : s.workers w = .running task loc) :
    task ∈ (s.workers w).inflight := by
  rw [here]
  exact Multiset.mem_singleton_self task

/-- No task is completed while a worker still has it. -/
theorem PoolState.not_completed (distinct : s.taken.Nodup) {w : Fin n} {task : τ}
    (mine : task ∈ (s.workers w).inflight) : task ∉ s.completed := by
  intro done
  have apart := (Multiset.nodup_add.mp distinct).2.2
  exact Multiset.disjoint_left.mp apart done (Multiset.mem_sum.mpr ⟨w, Finset.mem_univ w, mine⟩)

/-- No two workers have the same task. -/
theorem PoolState.inflight_apart (distinct : s.taken.Nodup) {u w : Fin n} (apart : u ≠ w) {task other : τ}
    (mine : task ∈ (s.workers w).inflight) (theirs : other ∈ (s.workers u).inflight) : task ≠ other := by
  intro same
  subst same
  have all := (Multiset.nodup_add.mp distinct).2.1
  rw [← Finset.add_sum_erase _ _ (Finset.mem_univ w)] at all
  refine Multiset.disjoint_left.mp (Multiset.nodup_add.mp all).2.2 mine ?_
  exact Multiset.mem_sum.mpr ⟨u, Finset.mem_erase.mpr ⟨apart, Finset.mem_univ u⟩, theirs⟩

end Taken

/-- What a proof about the tasks says of a state of the pool. -/
structure TaskProof.Holds (proof : TaskProof func tasks) (s : PoolState n Unit τ Λ μ) : Prop where
  shared : proof.shared s.memory
  running : ∀ w task loc, s.workers w = .running task loc → proof.running task loc s.memory
  done : ∀ task ∈ s.completed, proof.done task s.memory

theorem TaskProof.Holds.move {proof : TaskProof func tasks} {s' : PoolState n Unit τ Λ μ} {action : PoolAction n Unit}
    (holds : proof.Holds s) (distinct : s.taken.Nodup) (known : ∀ task ∈ s.taken, task ∈ tasks)
    (move : PoolMove (singleProducer limits single func tasks memory) s action s') : proof.Holds s' := by
  have ⟨shared, running, done⟩ := holds
  have others {w : Fin n} {state : WorkerState τ Λ} (idle : ∀ task loc, state ≠ .running task loc) :
      ∀ u task loc, Function.update s.workers w state u = .running task loc → proof.running task loc s.memory := by
    intro u task loc here
    by_cases same : u = w
    · rw [same, Function.update_self] at here
      exact absurd here (idle task loc)
    · rw [Function.update_of_ne same] at here
      exact running u task loc here
  cases move with
  | create => exact ⟨shared, others nofun, done⟩
  | add => exact ⟨shared, running, done⟩
  | getSleep => exact ⟨shared, running, done⟩
  | get => exact ⟨shared, others nofun, done⟩
  | dispatch => exact ⟨shared, others nofun, done⟩
  | switchKill => exact ⟨shared, others nofun, done⟩
  | @switchExec w task here =>
    refine ⟨shared, ?_, done⟩
    intro u other loc there
    by_cases same : u = w
    · rw [same] at there
      simp only [Function.update_self] at there
      cases there
      have mine : task ∈ (s.workers w).inflight := by rw [here]; exact Multiset.mem_singleton_self task
      exact proof.enter task (known task (PoolState.mem_taken mine)) s.memory shared
    · simp only [Function.update_of_ne same] at there
      exact running u other loc there
  | @run w task loc loc' memory' here next =>
    have mine := PoolState.running_inflight here
    have member := known task (PoolState.mem_taken mine)
    have now := running w task loc here
    obtain ⟨shared', running'⟩ := proof.step task member loc s.memory loc' memory' shared now next
    refine ⟨shared', ?_, ?_⟩
    · intro u other place there
      by_cases same : u = w
      · rw [same] at there
        simp only [Function.update_self] at there
        cases there
        exact running'
      · simp only [Function.update_of_ne same] at there
        have theirs := PoolState.running_inflight there
        have apart := PoolState.inflight_apart distinct same mine theirs
        exact (proof.others task member other (known other (PoolState.mem_taken theirs)) apart loc s.memory loc' memory'
          shared now next).1 place (running u other place there)
    · intro other ended
      have apart : task ≠ other := by
        intro same
        exact PoolState.not_completed distinct mine (same ▸ ended)
      have taken : other ∈ s.taken := Multiset.mem_add.mpr (Or.inl ended)
      exact (proof.others task member other (known other taken) apart loc s.memory loc' memory' shared now next).2
        (done other ended)
  | @returned w task loc here last =>
    have mine := PoolState.running_inflight here
    refine ⟨shared, others nofun, ?_⟩
    intro other ended
    rcases List.mem_append.mp ended with earlier | this
    · exact done other earlier
    · rw [List.mem_singleton.mp this]
      exact proof.returns task (known task (PoolState.mem_taken mine)) loc s.memory shared
        (running w task loc here) last
  | complete => exact ⟨shared, others (by split <;> nofun), done⟩
  | join => exact ⟨shared, running, done⟩
  | wakeWorker => exact ⟨shared, running, done⟩
  | wakeProducer => exact ⟨shared, running, done⟩

/-- The rule for concurrent tasks: what is shared holds in every reachable state of the pool,
and every completed task is done. -/
theorem TaskProof.pool (proof : TaskProof func tasks) (distinct : tasks.Nodup) (start : proof.shared memory)
    (reach : (poolSystem (singleProducer limits single func tasks memory) n).Reach s) : proof.Holds s := by
  refine pool_invariant (I := proof.Holds) ?_ ?_ reach
  · intro fresh
    exact ⟨start, fun _ _ _ => nofun, nofun⟩
  · intro s action s' reach holds move
    obtain ⟨first, rest, taken, split⟩ := pool_taken_prefix reach
    rw [← split] at distinct
    refine holds.move ?_ (fun _ => pool_taken_known reach) move
    rw [taken]
    exact Multiset.coe_nodup.mpr (List.nodup_append.mp distinct).1

end PCProject
