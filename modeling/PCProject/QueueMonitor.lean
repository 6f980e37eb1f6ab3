import PCProject.QueueRuns
import PCProject.Lib.WaitSet

namespace PCProject
variable {ι κ α : Type} [DecidableEq ι] [DecidableEq κ]

/-- The queue with the threads that use it: consumers `ι` call QUEUE_get any number of
times, producers `κ` call QUEUE_add once for each task of `todo`. The last two fields are
history: the tasks in the order of the calls that added and popped them. -/
structure MonitorState (ι κ α : Type) where
  queue : Queue α
  readers : WaitSet ι
  writers : WaitSet κ
  todo : κ → List α
  added : List α
  popped : List (ι × α)

/-- One step under a mutex, with the scheduler's choices: the thread, the threads that its
signal moves, and the address that `malloc` returns. -/
inductive MonitorAction (ι κ : Type)
  | get (t : ι) (woken : Finset κ) (fresh : Nat)
  | add (t : κ) (woken : Finset ι) (fresh : Nat)
  | wakeReader (t : ι)
  | wakeWriter (t : κ)
  | countDispatched
  | registerCompletion

/-- All threads outside the queue functions, with the tasks that they are going to add. -/
def MonitorState.start (lim : QueueLimits) (fresh : Nat) (todo : κ → List α) : MonitorState ι κ α where
  queue := queueCreate lim.chunkSize fresh
  readers _ := .awake
  writers _ := .awake
  todo := todo
  added := []
  popped := []

variable [Fintype ι] [Fintype κ]

/-- One pass of a consumer through QUEUE_get, with the task that it returns, if it does not
have to wait. A thread that is asleep has to be signalled, or wake up by itself, before it
tests its condition again. Any other thread may enter, so barging is allowed. -/
def monitorGet (lim : QueueLimits) (single : Bool) (s : MonitorState ι κ α) (t : ι) (woken : Finset κ)
    (fresh : Nat) : Option (Option α × MonitorState ι κ α) :=
  if s.readers t = .asleep then none else do
    let waits ← queueGetWaits s.queue
    if waits then some (none, { s with readers := s.readers.sleep t })
    else if s.writers.CanSignal single woken then do
      let (task, queue) ← queueGetSection lim.chunkSize s.queue fresh
      some (some task, { s with
        queue := queue, readers := s.readers.leave t, writers := s.writers.signal woken
        popped := s.popped ++ [(t, task)] })
    else none

def monitorStep (lim : QueueLimits) (single : Bool) (s : MonitorState ι κ α) :
    MonitorAction ι κ → Option (MonitorState ι κ α)
  | .get t woken fresh => (monitorGet lim single s t woken fresh).map Prod.snd
  | .add t woken fresh =>
    match s.todo t with
    | [] => none
    | task :: rest =>
      if s.writers t = .asleep then none else do
        let waits ← queueAddWaits lim.chunkSize lim.maxLiveChunks s.queue
        if waits then some { s with writers := s.writers.sleep t }
        else if s.readers.CanSignal single woken then do
          let queue ← queueAddSection lim.chunkSize s.queue task fresh
          some { s with
            queue := queue, writers := s.writers.leave t, readers := s.readers.signal woken
            todo := Function.update s.todo t rest, added := s.added ++ [task] }
        else none
  | .wakeReader t => if s.readers t = .asleep then some { s with readers := s.readers.wakeup t } else none
  | .wakeWriter t => if s.writers t = .asleep then some { s with writers := s.writers.wakeup t } else none
  | .countDispatched => some { s with queue := queueCountDispatched s.queue }
  | .registerCompletion => some { s with queue := queueRegisterCompletion s.queue }

/-- With `single` a signal moves exactly one sleeper when there is one, otherwise at least one. -/
def monitorSystem (lim : QueueLimits) (single : Bool) (ι κ α : Type) [DecidableEq ι] [DecidableEq κ]
    [Fintype ι] [Fintype κ] : System (MonitorState ι κ α) (MonitorAction ι κ) where
  init s := ∃ fresh todo, s = .start lim fresh todo
  step := monitorStep lim single

/-- What one step can do. -/
inductive MonitorMove (lim : QueueLimits) (single : Bool) (s : MonitorState ι κ α) :
    MonitorAction ι κ → MonitorState ι κ α → Prop
  | getSleep {t woken fresh} : s.readers t ≠ .asleep → queueGetWaits s.queue = some true →
      MonitorMove lim single s (.get t woken fresh) { s with readers := s.readers.sleep t }
  | get {t woken fresh task queue} : s.readers t ≠ .asleep → queueGetWaits s.queue = some false →
      s.writers.CanSignal single woken →
      queueGetSection lim.chunkSize s.queue fresh = some (task, queue) →
      MonitorMove lim single s (.get t woken fresh)
        { s with
          queue := queue, readers := s.readers.leave t, writers := s.writers.signal woken
          popped := s.popped ++ [(t, task)] }
  | addSleep {t woken fresh task rest} : s.todo t = task :: rest → s.writers t ≠ .asleep →
      queueAddWaits lim.chunkSize lim.maxLiveChunks s.queue = some true →
      MonitorMove lim single s (.add t woken fresh) { s with writers := s.writers.sleep t }
  | add {t woken fresh task rest queue} : s.todo t = task :: rest → s.writers t ≠ .asleep →
      queueAddWaits lim.chunkSize lim.maxLiveChunks s.queue = some false →
      s.readers.CanSignal single woken →
      queueAddSection lim.chunkSize s.queue task fresh = some queue →
      MonitorMove lim single s (.add t woken fresh)
        { s with
          queue := queue, writers := s.writers.leave t, readers := s.readers.signal woken
          todo := Function.update s.todo t rest, added := s.added ++ [task] }
  | wakeReader {t} : s.readers t = .asleep →
      MonitorMove lim single s (.wakeReader t) { s with readers := s.readers.wakeup t }
  | wakeWriter {t} : s.writers t = .asleep →
      MonitorMove lim single s (.wakeWriter t) { s with writers := s.writers.wakeup t }
  | countDispatched : MonitorMove lim single s .countDispatched { s with queue := queueCountDispatched s.queue }
  | registerCompletion :
      MonitorMove lim single s .registerCompletion { s with queue := queueRegisterCompletion s.queue }

variable {lim : QueueLimits} {single : Bool} {s s' : MonitorState ι κ α} {action : MonitorAction ι κ}

/-- The task returned is the one that the move adds to the history. -/
theorem monitorGet_move {t : ι} {woken : Finset κ} {fresh : Nat} {result : Option α}
    (run : monitorGet lim single s t woken fresh = some (result, s')) :
    MonitorMove lim single s (.get t woken fresh) s' ∧ s'.popped = s.popped ++ result.toList.map (t, ·) := by
  unfold monitorGet at run
  split at run
  · cases run
  rename_i up
  obtain ⟨waits, known, run⟩ := Option.bind_eq_some_iff.mp run
  cases waits with
  | true =>
    cases run
    exact ⟨.getSleep up known, by simp⟩
  | false =>
    simp only [Bool.false_eq_true, if_false] at run
    split at run
    · rename_i can
      obtain ⟨⟨task, queue⟩, body, run⟩ := Option.bind_eq_some_iff.mp run
      cases run
      exact ⟨.get up known can body, by simp⟩
    · cases run

theorem monitorStep_iff : monitorStep lim single s action = some s' ↔ MonitorMove lim single s action s' := by
  constructor
  · intro step
    cases action with
    | get t woken fresh =>
      obtain ⟨⟨result, after⟩, run, rfl⟩ := Option.map_eq_some_iff.mp step
      exact (monitorGet_move run).1
    | add t woken fresh =>
      simp only [monitorStep] at step
      split at step
      · cases step
      rename_i task rest pending
      split at step
      · cases step
      rename_i up
      obtain ⟨waits, known, step⟩ := Option.bind_eq_some_iff.mp step
      cases waits with
      | true => cases step; exact .addSleep pending up known
      | false =>
        simp only [Bool.false_eq_true, if_false] at step
        split at step
        · rename_i can
          obtain ⟨queue, body, step⟩ := Option.bind_eq_some_iff.mp step
          cases step
          exact .add pending up known can body
        · cases step
    | wakeReader t =>
      simp only [monitorStep] at step
      split at step
      · cases step; exact .wakeReader (by assumption)
      · cases step
    | wakeWriter t =>
      simp only [monitorStep] at step
      split at step
      · cases step; exact .wakeWriter (by assumption)
      · cases step
    | countDispatched => cases step; exact .countDispatched
    | registerCompletion => cases step; exact .registerCompletion
  · intro move
    cases move with
    | getSleep up known => simp [monitorStep, monitorGet, up, known]
    | get up known can body => simp [monitorStep, monitorGet, up, known, can, body]
    | addSleep pending up known => simp [monitorStep, pending, up, known]
    | add pending up known can body => simp [monitorStep, pending, up, known, can, body]
    | wakeReader down => simp [monitorStep, down]
    | wakeWriter down => simp [monitorStep, down]
    | countDispatched => rfl
    | registerCompletion => rfl

end PCProject
