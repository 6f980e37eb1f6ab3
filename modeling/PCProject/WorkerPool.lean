import PCProject.QueueMonitor
import Mathlib.Data.List.Count

namespace PCProject

/-- A task wrapper by its `task_type`. WP_request_stop leaves `task` NULL in a kill wrapper. -/
inductive TaskWrapper (τ : Type)
  | exec (task : τ)
  | kill

/-- The function that the workers run on each task, as a machine: `enter` is the call and
`step` one access to the memory it shares with the others, `none` when it has returned. -/
structure TaskFunc (τ Λ μ : Type) where
  enter : τ → Λ
  step : Λ → μ → Option (Λ × μ)

/-- Where a worker is in `_WP_run_helper_function`. QUEUE_get is passed in two steps, the
second of which counts the task as dispatched. -/
inductive WorkerState (τ Λ : Type)
  | notCreated
  | getting
  | popped (tw : TaskWrapper τ)
  | switching (tw : TaskWrapper τ)
  | running (task : τ) (loc : Λ)
  | completing (tw : TaskWrapper τ)
  | exited

/-- A call that a producer makes on the worker pool. -/
inductive Request (τ : Type)
  | enqueueTask (task : τ)
  | requestStop

variable {τ Λ μ κ : Type}

def TaskWrapper.isKill : TaskWrapper τ → Bool
  | .exec _ => false
  | .kill => true

def TaskWrapper.task? : TaskWrapper τ → Option τ
  | .exec task => some task
  | .kill => none

def Request.isStop : Request τ → Bool
  | .enqueueTask _ => false
  | .requestStop => true

/-- The wrappers that WP_enqueue_task and WP_request_stop hand to QUEUE_add, in order. -/
def Request.wrappers (threadCount : Nat) : Request τ → List (TaskWrapper τ)
  | .enqueueTask task => [.exec task]
  | .requestStop => List.replicate threadCount .kill

/-- The tasks among some wrappers. -/
def tasksOf (tws : List (TaskWrapper τ)) : List τ := tws.filterMap TaskWrapper.task?

def killsOf (tws : List (TaskWrapper τ)) : Nat := tws.countP TaskWrapper.isKill

def WorkerState.isExited : WorkerState τ Λ → Bool
  | .exited => true
  | _ => false

def WorkerState.isGetting : WorkerState τ Λ → Bool
  | .getting => true
  | _ => false

/-- The pool: the queue and its threads, the workers, how many of them WP_create has created
and WP_join has joined, and the memory that `func` works on. `completed` is history: the
tasks on which `func` has returned. -/
structure PoolState (n : Nat) (κ τ Λ μ : Type) where
  monitor : MonitorState (Fin n) κ (TaskWrapper τ)
  workers : Fin n → WorkerState τ Λ
  created : Nat
  joined : Nat
  memory : μ
  completed : List τ

/-- What a run of the pool is given. `main` is the thread that calls WP_create and WP_join. -/
structure PoolConfig (κ τ Λ μ : Type) where
  limits : QueueLimits
  single : Bool
  func : TaskFunc τ Λ μ
  main : κ
  programs : κ → List (Request τ)
  memory : μ

inductive PoolAction (n : Nat) (κ : Type)
  | create
  | add (j : κ) (woken : Finset (Fin n)) (fresh : Nat)
  | get (w : Fin n) (woken : Finset κ) (fresh : Nat)
  | worker (w : Fin n)
  | join
  | wakeWorker (w : Fin n)
  | wakeProducer (j : κ)

/-- The steps that no thread takes of its own accord: spurious wakeups. -/
def PoolAction.isWakeup {n : Nat} : PoolAction n κ → Bool
  | .wakeWorker _ | .wakeProducer _ => true
  | _ => false

def PoolState.start (cfg : PoolConfig κ τ Λ μ) (n fresh : Nat) : PoolState n κ τ Λ μ where
  monitor := .start cfg.limits fresh fun j => (cfg.programs j).flatMap (Request.wrappers n)
  workers _ := .notCreated
  created := 0
  joined := 0
  memory := cfg.memory
  completed := []

variable {n : Nat} [DecidableEq κ] [Fintype κ]

/-- The next step of a worker outside the `rw_mutex` section of QUEUE_get. -/
def workerStep (cfg : PoolConfig κ τ Λ μ) (s : PoolState n κ τ Λ μ) (w : Fin n) : Option (PoolState n κ τ Λ μ) :=
  match s.workers w with
  | .popped tw => some { s with
      monitor := { s.monitor with queue := queueCountDispatched s.monitor.queue }
      workers := Function.update s.workers w (.switching tw) }
  | .switching .kill => some { s with workers := Function.update s.workers w (.completing .kill) }
  | .switching (.exec task) => some { s with
      workers := Function.update s.workers w (.running task (cfg.func.enter task)) }
  | .running task loc =>
    match cfg.func.step loc s.memory with
    | some (loc, memory) => some { s with
        workers := Function.update s.workers w (.running task loc), memory := memory }
    | none => some { s with
        workers := Function.update s.workers w (.completing (.exec task)), completed := s.completed ++ [task] }
  | .completing tw => some { s with
      monitor := { s.monitor with queue := queueRegisterCompletion s.monitor.queue }
      workers := Function.update s.workers w (if tw.isKill then .exited else .getting) }
  | _ => none

/-- WP_create starts the workers one by one, the producers run once it has returned, and
WP_join waits for the workers in the order of their creation. -/
def poolStep (cfg : PoolConfig κ τ Λ μ) (s : PoolState n κ τ Λ μ) : PoolAction n κ → Option (PoolState n κ τ Λ μ)
  | .create =>
    if below : s.created < n then
      some { s with workers := Function.update s.workers ⟨s.created, below⟩ .getting, created := s.created + 1 }
    else none
  | .add j woken fresh =>
    if s.created = n then
      (monitorStep cfg.limits cfg.single s.monitor (.add j woken fresh)).map fun monitor =>
        { s with monitor := monitor }
    else none
  | .get w woken fresh =>
    match s.workers w with
    | .getting => do
      let (result, monitor) ← monitorGet cfg.limits cfg.single s.monitor w woken fresh
      match result with
      | none => some { s with monitor := monitor }
      | some tw => some { s with monitor := monitor, workers := Function.update s.workers w (.popped tw) }
    | _ => none
  | .worker w => workerStep cfg s w
  | .join =>
    if s.created = n ∧ (s.monitor.todo cfg.main).isEmpty then
      if below : s.joined < n then
        if (s.workers ⟨s.joined, below⟩).isExited then some { s with joined := s.joined + 1 } else none
      else none
    else none
  | .wakeWorker w =>
    (monitorStep cfg.limits cfg.single s.monitor (.wakeReader w)).map fun monitor => { s with monitor := monitor }
  | .wakeProducer j =>
    (monitorStep cfg.limits cfg.single s.monitor (.wakeWriter j)).map fun monitor => { s with monitor := monitor }

def poolSystem (cfg : PoolConfig κ τ Λ μ) (n : Nat) : System (PoolState n κ τ Λ μ) (PoolAction n κ) where
  init s := ∃ fresh, s = .start cfg n fresh
  step := poolStep cfg

end PCProject
