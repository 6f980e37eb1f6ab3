import PCProject.QueueCapacity
import PCProject.QueueRuns

namespace PCProject
variable {α : Type} {lim : QueueLimits} {queue queue' : Queue α} {content : List α} {p : Nat} {c : QueueChunk α}
  {rest : List (Nat × QueueChunk α)}

namespace Represents

/-- A consumer takes a task from the front chunk where a producer has to wait. The producer can go on
when it was the last task of the chunk: then the chunk is dropped, or replaced by an empty one. -/
theorem get_of_addWaits {fresh : Nat} (rep : Represents lim queue ((p, c) :: rest) content)
    (waits : queueAddWaits lim.chunkSize lim.maxLiveChunks queue = some true)
    (step : queueStep lim queue (.get fresh) = some queue') :
    (c.next + 1 < lim.chunkSize →
      Represents lim queue' ((p, { c with next := c.next + 1 }) :: rest) (content.drop 1) ∧
        queueAddWaits lim.chunkSize lim.maxLiveChunks queue' = some true) ∧
    (c.next + 1 = lim.chunkSize → (∃ cs, Represents lim queue' cs (content.drop 1)) ∧
      queueAddWaits lim.chunkSize lim.maxLiveChunks queue' = some false) := by
  have positive := lim.chunkSize_pos
  have nonempty : content ≠ [] := List.ne_nil_of_length_pos (by have := rep.length_of_waits waits; omega)
  simp only [queueStep, rep.getWaits, decide_eq_false nonempty, Option.bind_eq_bind, Option.bind_some,
    Bool.false_eq_true, if_false] at step
  obtain ⟨⟨task, after⟩, body, rfl⟩ := Option.map_eq_some_iff.mp step
  obtain ⟨cs, later, split, rep', shape⟩ := rep.get body nonempty
  rw [split, List.drop_succ_cons, List.drop_zero]
  rw [rep.addWaits_last, Option.some.injEq, decide_eq_true_eq] at waits
  cases shape with
  | keep more =>
    refine ⟨fun _ => ⟨rep', ?_⟩, fun last => absurd last (Nat.ne_of_lt more)⟩
    rw [rep'.addWaits_last, Option.some.injEq, decide_eq_true_eq]
    refine ⟨?_, waits.2⟩
    cases rest with
    | nil => exact waits.1
    | cons d rest => exact waits.1
  | @drop p c d rest last =>
    refine ⟨fun more => absurd last (Nat.ne_of_lt more), fun _ => ⟨⟨_, rep'⟩, ?_⟩⟩
    obtain ⟨q, d⟩ := d
    rw [rep'.addWaits_last, Option.some.injEq, decide_eq_false_iff_not]
    rintro ⟨_, count⟩
    have before := waits.2
    rw [List.length_cons] at before
    omega
  | replace last =>
    refine ⟨fun more => absurd last (Nat.ne_of_lt more), fun _ => ⟨⟨_, rep'⟩, ?_⟩⟩
    rw [rep'.addWaits_last, Option.some.injEq, decide_eq_false_iff_not]
    rintro ⟨filled, _⟩
    exact absurd (Option.some.inj filled) (Nat.ne_of_lt positive)

/-- The consumers' sections up to the release of the front chunk. -/
theorem gets_of_addWaits {freshs : List Nat} (rep : Represents lim queue ((p, c) :: rest) content)
    (waits : queueAddWaits lim.chunkSize lim.maxLiveChunks queue = some true)
    (short : c.next + freshs.length ≤ lim.chunkSize)
    (run : (queueSystem lim α).exec queue (freshs.map .get) = some queue') :
    (∃ cs, Represents lim queue' cs (content.drop freshs.length)) ∧
      queueAddWaits lim.chunkSize lim.maxLiveChunks queue' =
        some (decide (c.next + freshs.length < lim.chunkSize)) := by
  induction freshs generalizing queue c content with
  | nil =>
    cases run
    have room : c.next < lim.chunkSize := rep.room _ rfl
    exact ⟨⟨_, rep⟩, by rw [waits, List.length_nil, Nat.add_zero, decide_eq_true room]⟩
  | cons fresh freshs ih =>
    obtain ⟨middle, step, run⟩ := Option.bind_eq_some_iff.mp run
    obtain ⟨more, last⟩ := rep.get_of_addWaits waits step
    rw [List.length_cons] at short ⊢
    by_cases usedUp : c.next + 1 = lim.chunkSize
    · obtain ⟨⟨cs, after⟩, proceeds⟩ := last usedUp
      have ended : freshs = [] := List.length_eq_zero_iff.mp (by omega)
      subst ended
      cases run
      exact ⟨⟨cs, after⟩, by rw [proceeds, List.length_nil, Nat.zero_add, usedUp]; simp⟩
    · obtain ⟨rep', waits'⟩ := more (by omega)
      have later := ih rep' waits' (by simp only; omega) run
      rw [List.drop_drop] at later
      simpa only [Nat.add_assoc, Nat.add_comm 1] using later

/-- Such sections can always be run: `malloc` has an address for the chunk that may be needed. -/
theorem gets_exist {k : Nat} (rep : Represents lim queue ((p, c) :: rest) content)
    (waits : queueAddWaits lim.chunkSize lim.maxLiveChunks queue = some true)
    (short : c.next + k ≤ lim.chunkSize) :
    ∃ (freshs : List Nat) (queue' : Queue α), freshs.length = k ∧
      (queueSystem lim α).exec queue (freshs.map .get) = some queue' := by
  induction k generalizing queue c content with
  | zero => exact ⟨[], queue, rfl, rfl⟩
  | succ k ih =>
    obtain ⟨fresh, free⟩ := rep.exists_free
    have nonempty : content ≠ [] := List.ne_nil_of_length_pos (by have := rep.length_of_waits waits; omega)
    obtain ⟨task, after, body⟩ := rep.get_total nonempty free
    have step : queueStep lim queue (.get fresh) = some after := by
      simp only [queueStep, rep.getWaits, decide_eq_false nonempty, body, Option.bind_eq_bind, Option.bind_some,
        Bool.false_eq_true, if_false, Option.map_some]
    obtain ⟨more, _⟩ := rep.get_of_addWaits waits step
    by_cases usedUp : c.next + 1 = lim.chunkSize
    · have ended : k = 0 := by omega
      subst ended
      exact ⟨[fresh], after, rfl, Option.bind_eq_some_iff.mpr ⟨after, step, rfl⟩⟩
    · obtain ⟨rep', waits'⟩ := more (by omega)
      obtain ⟨freshs, queue', length, run⟩ := ih rep' waits' (by simp only; omega)
      exact ⟨fresh :: freshs, queue', congrArg (· + 1) length, Option.bind_eq_some_iff.mpr ⟨after, step, run⟩⟩

end Represents

/-- The limits bound the queue. A producer that has to wait finds more than all but one of the chunks' slots
taken, and it can go on as soon as consumers have used up the front chunk, and no sooner. -/
theorem queue_capacity {lim : QueueLimits} {queue : Queue α} (reach : (queueSystem lim α).Reach queue) :
    ∃ cs content p front, Represents lim queue cs content ∧ queue.front = some p ∧ queue.chunks p = some front ∧
      content.length ≤ lim.maxLiveChunks * lim.chunkSize ∧
      (queueAddWaits lim.chunkSize lim.maxLiveChunks queue = some true →
        (lim.maxLiveChunks - 1) * lim.chunkSize + 1 ≤ content.length ∧
        (∀ (freshs : List Nat) queue', freshs.length ≤ lim.chunkSize - front.next →
          (queueSystem lim α).exec queue (freshs.map .get) = some queue' →
          (∃ cs', Represents lim queue' cs' (content.drop freshs.length)) ∧
          queueAddWaits lim.chunkSize lim.maxLiveChunks queue' =
            some (decide (freshs.length < lim.chunkSize - front.next)) ∧
          (freshs.length < lim.chunkSize - front.next → queueGetWaits queue' = some false)) ∧
        ∃ (freshs : List Nat) (queue' : Queue α), freshs.length = lim.chunkSize - front.next ∧
          (queueSystem lim α).exec queue (freshs.map .get) = some queue') := by
  obtain ⟨cs, content, rep⟩ := queueSystem_represents reach
  obtain ⟨p, c, rest, rfl, atFront, stored, -⟩ := rep.at_front
  have room : c.next < lim.chunkSize := rep.room _ rfl
  refine ⟨_, content, p, c, rep, atFront, stored, rep.length_le, fun waits => ?_⟩
  refine ⟨rep.length_of_waits waits, fun freshs queue' short run => ?_, rep.gets_exist waits (by omega)⟩
  obtain ⟨⟨cs', rep'⟩, producer⟩ := rep.gets_of_addWaits waits (by omega) run
  have rearranged : c.next + freshs.length < lim.chunkSize ↔ freshs.length < lim.chunkSize - c.next := by omega
  refine ⟨⟨cs', rep'⟩, by rw [producer, decide_eq_decide.mpr rearranged], fun more => ?_⟩
  -- the producer would have to wait here as well, so there are tasks
  rw [decide_eq_true (rearranged.mpr more)] at producer
  have tasks := rep'.length_of_waits producer
  rw [rep'.getWaits, decide_eq_false (List.ne_nil_of_length_pos (by omega))]

/-- One chunk of two slots, both taken: the producer goes on after two tasks have been taken. -/
theorem queue_capacity_twoSlots :
    ∃ queue queue', (queueSystem .twoSlots Nat).exec (queueCreate 2 0) [.add 7 1, .add 8 1] = some queue ∧
      queueAddWaits 2 1 queue = some true ∧
      (queueSystem .twoSlots Nat).exec queue ([1, 1].map .get) = some queue' ∧
        queueAddWaits 2 1 queue' = some false := by
  have start : (queueSystem .twoSlots Nat).Reach (queueCreate 2 0) := .start ⟨0, rfl⟩
  obtain ⟨queue, filled⟩ : ∃ queue,
    (queueSystem .twoSlots Nat).exec (queueCreate 2 0) [.add 7 1, .add 8 1] = some queue := ⟨_, rfl⟩
  obtain ⟨_, _, p, front, _, atFront, stored, _, waiting⟩ := queue_capacity (start.exec filled)
  cases filled
  cases atFront
  cases stored
  obtain ⟨_, gets, _⟩ := waiting rfl
  obtain ⟨_, proceeds, _⟩ := gets [1, 1] _ (Nat.le_refl 2) rfl
  exact ⟨_, _, rfl, rfl, rfl, proceeds⟩

end PCProject
