import PCProject.QueueFifo

namespace PCProject
variable {α : Type}

/-- One section under `rw_mutex`: one pass of a thread through QUEUE_get or QUEUE_add. -/
inductive QueueEvent (α : Type)
  | get (fresh : Nat)
  | add (task : α) (fresh : Nat)

/-- A section that has to wait releases the mutex and leaves the queue as it is. -/
def queueStep (lim : QueueLimits) (queue : Queue α) : QueueEvent α → Option (Queue α)
  | .get fresh => do
    let waits ← queueGetWaits queue
    if waits then some queue else (queueGetSection lim.chunkSize queue fresh).map Prod.snd
  | .add task fresh => do
    let waits ← queueAddWaits lim.chunkSize lim.maxLiveChunks queue
    if waits then some queue else queueAddSection lim.chunkSize queue task fresh

def queueSystem (lim : QueueLimits) (α : Type) : System (Queue α) (QueueEvent α) where
  init queue := ∃ fresh, queue = queueCreate lim.chunkSize fresh
  step := queueStep lim

theorem queueCreate_represents (lim : QueueLimits) (fresh : Nat) :
    Represents lim (queueCreate lim.chunkSize fresh : Queue α) [(fresh, .empty lim.chunkSize)] [] :=
  Represents.single (queueCreate lim.chunkSize fresh) (fun _ => rfl) rfl

/-- One section keeps the representation: it leaves the list, removes its head, or appends. -/
theorem Represents.step {lim : QueueLimits} {queue queue' : Queue α} {cs : List (Nat × QueueChunk α)}
    {content : List α} {event : QueueEvent α} (rep : Represents lim queue cs content)
    (run : queueStep lim queue event = some queue') : ∃ cs' content', Represents lim queue' cs' content' := by
  cases event with
  | get fresh =>
    simp only [queueStep, rep.getWaits, Option.bind_eq_bind, Option.bind_some] at run
    split at run
    · cases run
      exact ⟨cs, content, rep⟩
    · rename_i nonempty
      obtain ⟨⟨task, after⟩, body, rfl⟩ := Option.map_eq_some_iff.mp run
      obtain ⟨cs', rest, -, rep', -⟩ := rep.get body (by simpa using nonempty)
      exact ⟨cs', rest, rep'⟩
  | add task fresh =>
    obtain ⟨waits, known⟩ := rep.addWaits_total
    simp only [queueStep, known, Option.bind_eq_bind, Option.bind_some] at run
    cases waits with
    | true =>
      cases run
      exact ⟨cs, content, rep⟩
    | false =>
      obtain ⟨cs', rep', -⟩ := rep.add known run
      exact ⟨cs', _, rep'⟩

theorem queueSystem_represents {lim : QueueLimits} {queue : Queue α} (reach : (queueSystem lim α).Reach queue) :
    ∃ cs content, Represents lim queue cs content := by
  refine reach.invariant (I := fun queue => ∃ cs content, Represents lim queue cs content) ?_ ?_
  · intro queue initial
    obtain ⟨fresh, rfl⟩ := initial
    exact ⟨_, _, queueCreate_represents lim fresh⟩
  · intro before event after _ old run
    obtain ⟨cs, content, rep⟩ := old
    exact rep.step run

/-- After any sequence of sections the chunks represent a list: QUEUE_get waits exactly when
it is empty and otherwise takes its head, QUEUE_add appends to it, and neither ever follows
an invalid pointer or leaves the bounds of a chunk. -/
theorem queue_refines_fifo {lim : QueueLimits} {queue : Queue α} (reach : (queueSystem lim α).Reach queue) :
    ∃ cs content, Represents lim queue cs content ∧
      1 ≤ queue.liveChunkCount ∧ queue.liveChunkCount ≤ lim.maxLiveChunks ∧
      queueGetWaits queue = some (decide (content = [])) ∧
      (∀ fresh task queue', content ≠ [] → queueGetSection lim.chunkSize queue fresh = some (task, queue') →
        ∃ cs' rest, content = task :: rest ∧ Represents lim queue' cs' rest) ∧
      (∀ fresh, content ≠ [] → queue.chunks fresh = none →
        ∃ task queue', queueGetSection lim.chunkSize queue fresh = some (task, queue')) ∧
      (∃ waits, queueAddWaits lim.chunkSize lim.maxLiveChunks queue = some waits) ∧
      (∀ fresh task queue', queueAddWaits lim.chunkSize lim.maxLiveChunks queue = some false →
        queueAddSection lim.chunkSize queue task fresh = some queue' →
        ∃ cs', Represents lim queue' cs' (content ++ [task])) ∧
      (∀ fresh task, queue.chunks fresh = none →
        ∃ queue', queueAddSection lim.chunkSize queue task fresh = some queue') := by
  obtain ⟨cs, content, rep⟩ := queueSystem_represents reach
  have positive := List.length_pos_iff.mpr rep.nonempty
  have limit := rep.limit
  have count := rep.count
  refine ⟨cs, content, rep, by omega, by omega, rep.getWaits, ?_, ?_, rep.addWaits_total, ?_, ?_⟩
  · intro fresh task queue' nonempty run
    obtain ⟨cs', rest, split, rep', -⟩ := rep.get run nonempty
    exact ⟨cs', rest, split, rep'⟩
  · exact fun fresh nonempty free => rep.get_total nonempty free
  · intro fresh task queue' waits run
    obtain ⟨cs', rep', -⟩ := rep.add waits run
    exact ⟨cs', rep'⟩
  · exact fun fresh task free => rep.add_total task free

/-- Two tasks in a chunk each, and the first one is taken together with its chunk. -/
theorem queue_refines_fifo_two_chunks :
    ∃ queue cs queue' cs', (queueSystem .twoChunks Nat).exec (queueCreate 1 0) [.add 7 1, .add 8 1] = some queue ∧
      queue.liveChunkCount = 2 ∧ Represents .twoChunks queue cs [7, 8] ∧
      queueGetSection 1 queue 2 = some (7, queue') ∧ Represents .twoChunks queue' cs' [8] := by
  have run : (queueSystem .twoChunks Nat).exec (queueCreate 1 0) [.add 7 1, .add 8 1] = some _ := rfl
  obtain ⟨cs, content, rep, -, -, waits, get, -⟩ := queue_refines_fifo (System.Reach.exec (.start ⟨0, rfl⟩) run)
  have nonempty : content ≠ [] := by
    rintro rfl
    cases waits
  obtain ⟨cs', rest, rfl, rep'⟩ := get 2 7 _ nonempty rfl
  -- What is left after the first task can only be the second one.
  have left : rest ≠ [] := by
    rintro rfl
    cases rep'.getWaits
  obtain ⟨cs'', others, rfl, rep'', -⟩ := rep'.get (rfl : queueGetSection 1 _ 2 = some (8, _)) left
  have last : others = [] := by
    by_contra more
    have waits := rep''.getWaits
    rw [decide_eq_false more] at waits
    cases waits
  subst last
  exact ⟨_, cs, _, cs', run, rfl, rep, rfl, rep'⟩

end PCProject
