import PCProject.QueueShape
import PCProject.Lib.Transition
import Mathlib.Data.Fintype.EquivFin
import Mathlib.Tactic.Push

namespace PCProject
variable {α : Type} {lim : QueueLimits} {queue queue' : Queue α} {cs : List (Nat × QueueChunk α)}
  {content : List α} {task : α} {fresh : Nat}

/-- What one section of QUEUE_get does to the chunks: it advances the front chunk, or drops
it when it is used up, or replaces it when it was the only one. -/
inductive GetShape (lim : QueueLimits) : List (Nat × QueueChunk α) → List (Nat × QueueChunk α) → Prop
  | keep {p c rest} : c.next + 1 < lim.chunkSize →
      GetShape lim ((p, c) :: rest) ((p, { c with next := c.next + 1 }) :: rest)
  | drop {p c d rest} : c.next + 1 = lim.chunkSize → GetShape lim ((p, c) :: d :: rest) (d :: rest)
  | replace {p c fresh} : c.next + 1 = lim.chunkSize → GetShape lim [(p, c)] [(fresh, .empty lim.chunkSize)]

/-- What one section of QUEUE_add does to the chunks: it fills the back chunk further, or
links a new chunk behind a full one. -/
inductive AddShape (lim : QueueLimits) (task : α) :
    List (Nat × QueueChunk α) → List (Nat × QueueChunk α) → Prop
  | fill {init b c} : c.filled < lim.chunkSize →
      AddShape lim task (init ++ [(b, c)]) (init ++ [(b, c.push task)])
  | grow {init b c fresh} : c.filled = lim.chunkSize →
      AddShape lim task (init ++ [(b, c)])
        (init ++ [(b, { c with nextChunk := some fresh }), (fresh, QueueChunk.push (.empty lim.chunkSize) task)])

theorem queueCreateChunk_eq_some {size : Nat} {chunks chunks' : Cells Nat (QueueChunk α)} :
    queueCreateChunk size chunks fresh = some chunks' ↔
      chunks fresh = none ∧ chunks' = chunks.store fresh (.empty size) := by
  unfold queueCreateChunk
  split
  · rename_i free
    simp [Option.isNone_iff_eq_none.mp free, eq_comm]
  · rename_i taken
    simp [Option.isNone_iff_eq_none] at taken
    simp [taken]

/-- Freeing a chunk that has been cut off frees this chunk only. -/
theorem queueFreeChunk_cut {chunks : Cells Nat (QueueChunk α)} {p : Nat} {c : QueueChunk α} :
    queueFreeChunk 1 (chunks.store p { c with nextChunk := none }) (some p) = some (chunks.free p) := by
  simp [queueFreeChunk]

/-- The body of QUEUE_get once the front chunk and the slot it reads are known. -/
theorem queueGetSection_eq {size p : Nat} {c : QueueChunk α} (atFront : queue.front = some p)
    (stored : queue.chunks p = some c) (read : c.tasks[c.next]? = some (some task)) :
    queueGetSection size queue fresh =
      if size ≤ c.next + 1 then
        match c.nextChunk with
        | none => (queueCreateChunk size (queue.chunks.free p) fresh).map fun chunks =>
            (task, { queue with chunks := chunks, front := some fresh, back := some fresh })
        | some successor => some (task, { queue with
            chunks := queue.chunks.free p, front := some successor, liveChunkCount := queue.liveChunkCount - 1 })
      else some (task, { queue with chunks := queue.chunks.store p { c with next := c.next + 1 } }) := by
  simp only [queueGetSection, atFront, stored, read, Option.bind_eq_bind, Option.bind_some, Option.join_some]
  split
  · rw [queueFreeChunk_cut (c := { c with next := c.next + 1 })]
    cases c.nextChunk with
    | none =>
      simp only [Option.bind_some]
      cases queueCreateChunk size (queue.chunks.free p) fresh <;> rfl
    | some => rfl
  · rfl

/-- The body of QUEUE_add once the back chunk is known. -/
theorem queueAddSection_eq {size b : Nat} {c : QueueChunk α} (positive : 0 < size) (atBack : queue.back = some b)
    (stored : queue.chunks b = some c) (slots : c.tasks.length = size) :
    queueAddSection size queue task fresh =
      if size ≤ c.filled then
        (queueCreateChunk size queue.chunks fresh).map fun _ =>
          { queue with
            chunks := (queue.chunks.store b { c with nextChunk := some fresh }).store fresh
              (QueueChunk.push (.empty size) task)
            back := some fresh
            liveChunkCount := queue.liveChunkCount + 1 }
      else some { queue with chunks := queue.chunks.store b (c.push task) } := by
  simp only [queueAddSection, atBack, stored, Option.bind_eq_bind, Option.bind_some]
  split
  · cases created : queueCreateChunk size queue.chunks fresh with
    | none => rfl
    | some chunks =>
      obtain ⟨free, rfl⟩ := queueCreateChunk_eq_some.mp created
      have apart : b ≠ fresh := by rintro rfl; rw [stored] at free; cases free
      have emptyChunk : (queue.chunks.store fresh (.empty size)).store b { c with nextChunk := some fresh } fresh =
          some (.empty size) := by rw [Cells.store_ne _ _ apart.symm, Cells.store_self]
      simp only [Option.bind_some, queueStoreTask, emptyChunk, Option.bind_eq_bind, Option.map_some]
      rw [if_pos (by simpa [QueueChunk.empty] using positive)]
      simp only [Option.bind_some, Option.some.injEq, Queue.mk.injEq, and_true]
      funext a
      simp only [Cells.store, Function.update_apply]
      split <;> simp_all
  · rename_i short
    simp only [queueStoreTask, stored, Option.bind_eq_bind, Option.bind_some]
    rw [if_pos (by omega)]
    rfl

/-- The counter of dispatched tasks is left to the other mutex. -/
theorem queueGetSection_dispatched {size : Nat} (run : queueGetSection size queue fresh = some (task, queue')) :
    queue'.dispatched = queue.dispatched := by
  unfold queueGetSection at run
  obtain ⟨p, _, run⟩ := Option.bind_eq_some_iff.mp run
  obtain ⟨front, _, run⟩ := Option.bind_eq_some_iff.mp run
  obtain ⟨first, _, run⟩ := Option.bind_eq_some_iff.mp run
  dsimp only at run
  split at run
  · obtain ⟨chunks, _, run⟩ := Option.bind_eq_some_iff.mp run
    split at run
    · obtain ⟨chunks', _, run⟩ := Option.bind_eq_some_iff.mp run
      cases run
      rfl
    · cases run
      rfl
  · cases run
    rfl

theorem queueAddSection_dispatched {size : Nat} (run : queueAddSection size queue task fresh = some queue') :
    queue'.dispatched = queue.dispatched := by
  unfold queueAddSection at run
  obtain ⟨p, _, run⟩ := Option.bind_eq_some_iff.mp run
  obtain ⟨back, _, run⟩ := Option.bind_eq_some_iff.mp run
  split at run
  · obtain ⟨chunks, _, run⟩ := Option.bind_eq_some_iff.mp run
    obtain ⟨chunks', _, run⟩ := Option.bind_eq_some_iff.mp run
    cases run
    rfl
  · obtain ⟨chunks, _, run⟩ := Option.bind_eq_some_iff.mp run
    cases run
    rfl

namespace Represents

/-- The wait condition of QUEUE_get is emptiness of the list, whatever the chunks. -/
theorem getWaits (rep : Represents lim queue cs content) :
    queueGetWaits queue = some (decide (content = [])) := by
  obtain ⟨p, c, rest, split, atFront, stored, _⟩ := rep.at_front
  subst split
  have room : c.next < lim.chunkSize := rep.room _ rfl
  obtain ⟨order, bound, slots⟩ := rep.sound_at (List.mem_cons_self ..)
  have width : c.window.length = c.filled - c.next := QueueChunk.window_length (by omega)
  have listed := rep.content
  simp only [List.flatMap_cons] at listed
  simp only [queueGetWaits, atFront, stored, Option.bind_eq_bind, Option.bind_some, Option.some.injEq, decide_eq_decide]
  constructor
  · intro usedUp
    have last : rest = [] := by
      by_contra more
      have full := rep.full (p, c) (by simp [List.dropLast_cons_of_ne_nil more])
      simp only at full
      omega
    subst last
    have noWindow : c.window = [] := List.length_eq_zero_iff.mp (by omega)
    rw [noWindow] at listed
    simpa using listed.symm
  · rintro rfl
    have noWindow : c.window = [] := (List.append_eq_nil_iff.mp listed).1
    rw [noWindow] at width
    simp only [List.length_nil] at width
    omega

/-- The wait condition of QUEUE_add reads the back chunk and the number of chunks. -/
theorem addWaits (rep : Represents lim queue cs content) {init : List (Nat × QueueChunk α)} {b : Nat}
    {c : QueueChunk α} (split : cs = init ++ [(b, c)]) :
    queueAddWaits lim.chunkSize lim.maxLiveChunks queue =
      some (decide (c.filled = lim.chunkSize ∧ cs.length = lim.maxLiveChunks)) := by
  subst split
  obtain ⟨atBack, stored, -⟩ := rep.back_path
  have bound := (rep.sound_at (List.mem_append_right init (List.mem_singleton_self _))).2.1
  have limit := rep.limit
  simp only [queueAddWaits, atBack, stored, rep.count, Option.bind_eq_bind, Option.bind_some,
    Option.some.injEq, decide_eq_decide]
  omega

theorem addWaits_total (rep : Represents lim queue cs content) :
    ∃ waits, queueAddWaits lim.chunkSize lim.maxLiveChunks queue = some waits := by
  obtain ⟨init, b, c, split⟩ := rep.at_back
  exact ⟨_, rep.addWaits split⟩

/-- The blocking condition of QUEUE_add in terms of the chunks. -/
theorem addWaits_last (rep : Represents lim queue cs content) :
    queueAddWaits lim.chunkSize lim.maxLiveChunks queue =
      some (decide (cs.getLast?.map (fun c => c.2.filled) = some lim.chunkSize ∧ cs.length = lim.maxLiveChunks)) := by
  obtain ⟨init, b, back, rfl⟩ := rep.at_back
  rw [rep.addWaits rfl]
  simp

/-- The front chunk after one more read, where unread slots of it remain to be used. -/
theorem advance {p : Nat} {c : QueueChunk α} {rest : List (Nat × QueueChunk α)}
    (rep : Represents lim queue ((p, c) :: rest) (task :: content)) (atFront : queue.front = some p)
    (unread : c.next < c.filled) (more : c.next + 1 < lim.chunkSize)
    (listed : QueueChunk.window { c with next := c.next + 1 } ++ rest.flatMap (fun d => d.2.window) =
      content.map some) :
    Represents lim { queue with chunks := queue.chunks.store p { c with next := c.next + 1 } }
      ((p, { c with next := c.next + 1 }) :: rest) content where
  path := by
    have apart := (List.nodup_cons.mp rep.path.nodup).1
    have path := rep.path
    rw [atFront] at path ⊢
    cases path with
    | cons stored later =>
      refine .cons (Cells.store_self ..) (later.frame fun a member => Cells.store_ne _ _ ?_)
      rintro rfl
      exact apart member
  nonempty := by simp
  back := by
    rw [← rep.back]
    cases rest with
    | nil => rfl
    | cons d rest => simp
  owned a allocated := by
    by_cases same : a = p
    · simp [same]
    · simp only [Cells.store_ne _ _ same] at allocated
      simpa using rep.owned a allocated
  full d member := by
    cases rest with
    | nil => cases member
    | cons e rest =>
      rcases List.mem_cons.mp member with rfl | later
      · exact rep.full (p, c) (by simp)
      · exact rep.full d (List.mem_cons_of_mem _ later)
  unread := rep.unread
  sound d member := by
    rcases List.mem_cons.mp member with rfl | later
    · have here := rep.sound_at (List.mem_cons_self ..)
      exact ⟨unread, here.2⟩
    · exact rep.sound d (List.mem_cons_of_mem _ later)
  room d member := by
    cases Option.some.inj member
    exact more
  count := rep.count
  limit := rep.limit
  content := by rw [List.flatMap_cons]; exact listed

/-- The used up front chunk is dropped when a successor can take its place. -/
theorem drop {p p' : Nat} {c d : QueueChunk α} {rest : List (Nat × QueueChunk α)}
    (rep : Represents lim queue ((p, c) :: (p', d) :: rest) (task :: content)) (successor : c.nextChunk = some p')
    (atFront : queue.front = some p)
    (listed : List.flatMap (fun e => e.2.window) ((p', d) :: rest) = content.map some) :
    Represents lim
      { queue with chunks := queue.chunks.free p, front := some p', liveChunkCount := queue.liveChunkCount - 1 }
      ((p', d) :: rest) content where
  path := by
    have apart := (List.nodup_cons.mp rep.path.nodup).1
    have path := rep.path
    rw [atFront] at path
    cases path with
    | cons stored later =>
      rw [← successor]
      refine later.frame fun a member => Cells.free_ne _ ?_
      rintro rfl
      exact apart member
  nonempty := by simp
  back := by rw [← rep.back]; rfl
  owned a allocated := by
    have other : a ≠ p := by rintro rfl; simp at allocated
    simp only [Cells.free_ne _ other] at allocated
    simpa [other] using rep.owned a allocated
  full e member := rep.full e (by simpa using Or.inr member)
  unread e member := rep.unread e (List.mem_cons_of_mem _ member)
  sound e member := rep.sound e (List.mem_cons_of_mem _ member)
  room e member := by
    cases Option.some.inj member
    have fresh := rep.unread (p', d) (List.mem_cons_self ..)
    have positive := lim.chunkSize_pos
    simp only at fresh ⊢
    omega
  count := by
    have count := rep.count
    simp only [List.length_cons] at count ⊢
    omega
  limit := by
    have limit := rep.limit
    simp only [List.length_cons] at limit ⊢
    omega
  content := listed

/-- A queue whose only chunk has just been created. -/
theorem single (queue : Queue α) {chunks : Cells Nat (QueueChunk α)} (alone : ∀ a, chunks a = none)
    (count : queue.liveChunkCount = 1) :
    Represents lim
      { queue with
        chunks := chunks.store fresh (.empty lim.chunkSize), front := some fresh, back := some fresh }
      [(fresh, .empty lim.chunkSize)] [] where
  path := .cons (Cells.store_self ..) .nil
  nonempty := by simp
  back := rfl
  owned a allocated := by
    by_contra other
    have apart : a ≠ fresh := by simpa using other
    simp only [Cells.store_ne _ _ apart, alone, ne_eq, not_true_eq_false] at allocated
  full d member := by cases member
  unread d member := by cases member
  sound d member := by
    cases List.mem_singleton.mp member
    simp [QueueChunk.empty]
  room d member := by
    cases Option.some.inj member
    exact lim.chunkSize_pos
  count := count
  limit := lim.maxLiveChunks_pos
  content := by simp [QueueChunk.window_empty]

/-- Where the list is not empty, its first element is in the slot that QUEUE_get reads. -/
theorem at_read {first : α} {rest : List α} (rep : Represents lim queue cs (first :: rest)) :
    ∃ p c later, cs = (p, c) :: later ∧ queue.front = some p ∧ queue.chunks p = some c ∧
      Segment QueueChunk.nextChunk queue.chunks c.nextChunk later none ∧ c.next < c.filled ∧
      c.tasks[c.next]? = some (some first) ∧
      QueueChunk.window { c with next := c.next + 1 } ++ later.flatMap (fun d => d.2.window) = rest.map some := by
  obtain ⟨p, c, later, split, atFront, stored, path⟩ := rep.at_front
  subst split
  obtain ⟨order, bound, slots⟩ := rep.sound_at (List.mem_cons_self ..)
  have unread : c.next < c.filled := by
    have waits := rep.getWaits
    simp only [queueGetWaits, atFront, stored, Option.bind_eq_bind, Option.bind_some, reduceCtorEq, decide_false,
      Option.some.injEq, decide_eq_false_iff_not] at waits
    omega
  obtain ⟨slot, read, opened⟩ := QueueChunk.window_read unread (by omega)
  have listed := rep.content
  simp only [List.flatMap_cons, opened, List.cons_append, List.map_cons, List.cons.injEq] at listed
  obtain ⟨rfl, listed⟩ := listed
  exact ⟨p, c, later, rfl, atFront, stored, path, unread, read, listed⟩

/-- A section of QUEUE_get that does not wait returns the first element and leaves the rest. -/
theorem get (rep : Represents lim queue cs content)
    (run : queueGetSection lim.chunkSize queue fresh = some (task, queue')) (nonempty : content ≠ []) :
    ∃ cs' rest, content = task :: rest ∧ Represents lim queue' cs' rest ∧ GetShape lim cs cs' := by
  cases content with
  | nil => exact absurd rfl nonempty
  | cons first rest =>
    obtain ⟨p, c, later, split, atFront, stored, path, unread, read, listed⟩ := rep.at_read
    subst split
    have room : c.next < lim.chunkSize := rep.room _ rfl
    obtain ⟨order, bound, slots⟩ := rep.sound_at (List.mem_cons_self ..)
    rw [queueGetSection_eq atFront stored read] at run
    by_cases usedUp : lim.chunkSize ≤ c.next + 1
    · have last : c.next + 1 = lim.chunkSize := by omega
      have noWindow : QueueChunk.window { c with next := c.next + 1 } = [] := by
        have width := QueueChunk.window_length (show { c with next := c.next + 1 }.filled ≤ _ by simp only; omega)
        exact List.length_eq_zero_iff.mp (by simp only at width; omega)
      rw [noWindow, List.nil_append] at listed
      rw [if_pos usedUp] at run
      generalize atNext : c.nextChunk = successor at path run
      cases path with
      | nil =>
        obtain ⟨chunks, created, same⟩ := Option.map_eq_some_iff.mp run
        cases same
        obtain ⟨-, rfl⟩ := queueCreateChunk_eq_some.mp created
        have empty : rest = [] := by simpa using listed.symm
        subst empty
        refine ⟨_, [], rfl, single queue (fun a => ?_) (by simpa using rep.count), .replace last⟩
        by_cases same : a = p
        · simp [same]
        · rw [Cells.free_ne _ same]
          by_contra allocated
          exact same (by simpa using rep.owned a allocated)
      | cons there path =>
        cases run
        exact ⟨_, rest, rfl, drop rep atNext atFront listed, .drop last⟩
    · rw [if_neg usedUp] at run
      cases run
      exact ⟨_, rest, rfl, advance rep atFront unread (by omega) listed, .keep (by omega)⟩

/-- A section of QUEUE_get that does not wait has no invalid access. -/
theorem get_total (rep : Represents lim queue cs content) (nonempty : content ≠ [])
    (free : queue.chunks fresh = none) :
    ∃ task queue', queueGetSection lim.chunkSize queue fresh = some (task, queue') := by
  cases content with
  | nil => exact absurd rfl nonempty
  | cons first rest =>
    obtain ⟨p, c, later, -, atFront, stored, -, -, read, -⟩ := rep.at_read
    rw [queueGetSection_eq atFront stored read]
    split
    · cases c.nextChunk with
      | some successor => exact ⟨_, _, rfl⟩
      | none =>
        have apart : fresh ≠ p := by rintro rfl; rw [stored] at free; cases free
        have stillFree : queue.chunks.free p fresh = none := (Cells.free_ne _ apart).trans free
        simp [queueCreateChunk, stillFree]
    · exact ⟨_, _, rfl⟩

/-- The back chunk with one more task, where it still has a free slot. -/
theorem fill {init : List (Nat × QueueChunk α)} {b : Nat} {c : QueueChunk α}
    (rep : Represents lim queue (init ++ [(b, c)]) content) (space : c.filled < lim.chunkSize) :
    Represents lim { queue with chunks := queue.chunks.store b (c.push task) }
      (init ++ [(b, c.push task)]) (content ++ [task]) where
  path := by
    obtain ⟨-, -, atEnd, apart, first⟩ := rep.back_path
    refine Segment.append_iff.mpr ⟨_, first.frame fun a member => Cells.store_ne _ _ ?_, .cons (Cells.store_self ..) ?_⟩
    · rintro rfl
      exact apart member
    · rw [show (c.push task).nextChunk = none from atEnd]
      exact .nil
  nonempty := by simp
  back := by rw [← rep.back]; simp
  owned a allocated := by
    by_cases same : a = b
    · simp [same]
    · simp only [Cells.store_ne _ _ same] at allocated
      simpa using rep.owned a allocated
  full d member := rep.full d (by simpa using member)
  unread d member := by
    cases init with
    | nil => cases member
    | cons e init =>
      rcases List.mem_append.mp member with before | here
      · exact rep.unread d (List.mem_append_left _ before)
      · cases List.mem_singleton.mp here
        exact rep.unread (b, c) (List.mem_append_right init (List.mem_singleton_self _))
  sound d member := by
    rcases List.mem_append.mp member with before | here
    · exact rep.sound d (List.mem_append_left _ before)
    · cases List.mem_singleton.mp here
      have sound := rep.sound_at (List.mem_append_right init (List.mem_singleton_self _))
      simp only [QueueChunk.push, List.length_set]
      omega
  room d member := by
    cases init with
    | nil =>
      cases Option.some.inj member
      exact rep.room (b, c) rfl
    | cons e init => exact rep.room d member
  count := by simpa using rep.count
  limit := by simpa using rep.limit
  content := by
    obtain ⟨order, -, slots⟩ := rep.sound_at (List.mem_append_right init (List.mem_singleton_self _))
    have listed := rep.content
    simp only [List.flatMap_append, List.flatMap_cons, List.flatMap_nil, List.append_nil, List.map_append,
      List.map_cons, List.map_nil] at listed ⊢
    rw [QueueChunk.window_write task order (by omega), ← List.append_assoc, listed]

/-- A new chunk behind a full back chunk, with the new task as its first. -/
theorem grow {init : List (Nat × QueueChunk α)} {b : Nat} {c : QueueChunk α}
    (rep : Represents lim queue (init ++ [(b, c)]) content) (isFull : c.filled = lim.chunkSize)
    (below : (init ++ [(b, c)]).length < lim.maxLiveChunks) (free : queue.chunks fresh = none) :
    Represents lim
      { queue with
        chunks := (queue.chunks.store b { c with nextChunk := some fresh }).store fresh
          (QueueChunk.push (.empty lim.chunkSize) task)
        back := some fresh
        liveChunkCount := queue.liveChunkCount + 1 }
      (init ++ [(b, { c with nextChunk := some fresh }), (fresh, QueueChunk.push (.empty lim.chunkSize) task)])
      (content ++ [task]) where
  path := by
    obtain ⟨-, stored, atEnd, apart, first⟩ := rep.back_path
    have different : b ≠ fresh := by rintro rfl; rw [stored] at free; cases free
    refine Segment.append_iff.mpr ⟨_, first.frame fun a member => ?_, .cons ?_ (.cons (Cells.store_self ..) .nil)⟩
    · have old : a ≠ fresh := by rintro rfl; exact first.allocated member free
      have other : a ≠ b := by rintro rfl; exact apart member
      simp only [Cells.store_ne _ _ old, Cells.store_ne _ _ other]
    · simp only [Cells.store_ne _ _ different, Cells.store_self]
  nonempty := by simp
  back := by simp
  owned a allocated := by
    by_cases new : a = fresh
    · simp [new]
    by_cases same : a = b
    · simp [same]
    · simp only [Cells.store_ne _ _ new, Cells.store_ne _ _ same] at allocated
      have old := rep.owned a allocated
      simp only [List.map_append, List.map_cons, List.map_nil, List.mem_append, List.mem_singleton] at old
      simpa [new, same] using old
  full d member := by
    rw [List.dropLast_append_of_ne_nil (by simp)] at member
    rcases List.mem_append.mp member with before | here
    · exact rep.full d (by simpa using before)
    · cases List.mem_singleton.mp here
      exact isFull
  unread d member := by
    have later : d ∈ (init ++ [(b, c)]).tail ∨ d.2.next = 0 ∨ init ≠ [] ∧
      d = (b, { c with nextChunk := some fresh }) := by
      cases init with
      | nil =>
        cases List.mem_singleton.mp member
        exact Or.inr (Or.inl rfl)
      | cons e init =>
        simp only [List.cons_append, List.tail_cons, List.mem_append, List.mem_cons, List.not_mem_nil, or_false]
          at member ⊢
        rcases member with before | here | new
        · exact Or.inl (Or.inl before)
        · exact Or.inr (Or.inr ⟨by simp, here⟩)
        · exact Or.inr (Or.inl (new ▸ rfl))
    rcases later with old | zero | ⟨some, rfl⟩
    · exact rep.unread d old
    · exact zero
    · refine rep.unread (b, c) ?_
      rw [List.tail_append_of_ne_nil some]
      exact List.mem_append_right _ (List.mem_singleton_self _)
  sound d member := by
    have positive := lim.chunkSize_pos
    simp only [List.mem_append, List.mem_cons, List.not_mem_nil, or_false] at member
    rcases member with before | rfl | rfl
    · exact rep.sound d (List.mem_append_left _ before)
    · exact rep.sound (b, c) (List.mem_append_right init (List.mem_singleton_self _))
    · simpa [QueueChunk.push, QueueChunk.empty] using Nat.succ_le_of_lt positive
  room d member := by
    cases init with
    | nil =>
      cases Option.some.inj member
      exact rep.room (b, c) rfl
    | cons e init => exact rep.room d member
  count := by
    have count := rep.count
    simp only [List.length_append, List.length_cons, List.length_nil] at count ⊢
    omega
  limit := by
    simp only [List.length_append, List.length_cons, List.length_nil] at below ⊢
    omega
  content := by
    have first : (QueueChunk.push (.empty lim.chunkSize) task).window = [some task] := by
      have written := QueueChunk.window_write task (show (QueueChunk.empty lim.chunkSize).next ≤ _ from le_rfl)
        (by simpa [QueueChunk.empty] using lim.chunkSize_pos)
      rw [written, QueueChunk.window_empty, List.nil_append]
    have listed := rep.content
    simp only [List.flatMap_append, List.flatMap_cons, List.flatMap_nil, List.append_nil, List.map_append,
      List.map_cons, List.map_nil] at listed ⊢
    rw [first, ← listed]
    simp [QueueChunk.window]

/-- A section of QUEUE_add that does not wait appends exactly its task. -/
theorem add (rep : Represents lim queue cs content)
    (waits : queueAddWaits lim.chunkSize lim.maxLiveChunks queue = some false)
    (run : queueAddSection lim.chunkSize queue task fresh = some queue') :
    ∃ cs', Represents lim queue' cs' (content ++ [task]) ∧ AddShape lim task cs cs' := by
  obtain ⟨init, b, c, rfl⟩ := rep.at_back
  obtain ⟨atBack, stored, -⟩ := rep.back_path
  obtain ⟨-, bound, slots⟩ := rep.sound_at (List.mem_append_right init (List.mem_singleton_self _))
  have limit := rep.limit
  simp only [rep.addWaits rfl, Option.some.injEq, decide_eq_false_iff_not] at waits
  rw [queueAddSection_eq lim.chunkSize_pos atBack stored slots] at run
  by_cases isFull : lim.chunkSize ≤ c.filled
  · rw [if_pos isFull] at run
    obtain ⟨chunks, created, rfl⟩ := Option.map_eq_some_iff.mp run
    obtain ⟨free, -⟩ := queueCreateChunk_eq_some.mp created
    exact ⟨_, rep.grow (by omega) (by omega) free, .grow (by omega)⟩
  · rw [if_neg isFull] at run
    cases run
    exact ⟨_, rep.fill (by omega), .fill (by omega)⟩

/-- A section of QUEUE_add that does not wait has no invalid access. -/
theorem add_total (rep : Represents lim queue cs content) (task : α) (free : queue.chunks fresh = none) :
    ∃ queue', queueAddSection lim.chunkSize queue task fresh = some queue' := by
  obtain ⟨init, b, c, rfl⟩ := rep.at_back
  obtain ⟨atBack, stored, -⟩ := rep.back_path
  obtain ⟨-, bound, slots⟩ := rep.sound_at (List.mem_append_right init (List.mem_singleton_self _))
  rw [queueAddSection_eq lim.chunkSize_pos atBack stored slots]
  split
  · simp [queueCreateChunk, free]
  · exact ⟨_, rfl⟩

/-- A queue without tasks is down to one chunk, whose slots have all been read. -/
theorem drained (rep : Represents lim queue cs []) :
    queue.liveChunkCount = 1 ∧ ∃ b back, queue.back = some b ∧ queue.chunks b = some back ∧
      back.filled = back.next := by
  obtain ⟨p, c, rest, split, atFront, stored, path⟩ := rep.at_front
  subst split
  obtain ⟨order, bound, slots⟩ := rep.sound_at (List.mem_cons_self ..)
  have room : c.next < lim.chunkSize := rep.room _ rfl
  have listed := rep.content
  simp only [List.flatMap_cons, List.map_nil, List.append_eq_nil_iff] at listed
  have width : c.window.length = c.filled - c.next := QueueChunk.window_length (by omega)
  rw [listed.1, List.length_nil] at width
  have last : rest = [] := by
    by_contra more
    have full : c.filled = lim.chunkSize := rep.full (p, c) (by simp [List.dropLast_cons_of_ne_nil more])
    omega
  subst last
  exact ⟨by simpa using rep.count, p, c, rep.back.symm, stored, by omega⟩

/-- Only finitely many addresses hold chunks, so `malloc` always has one to return. -/
theorem exists_free (rep : Represents lim queue cs content) : ∃ fresh, queue.chunks fresh = none := by
  obtain ⟨fresh, outside⟩ := Infinite.exists_notMem_finset (cs.map Prod.fst).toFinset
  refine ⟨fresh, ?_⟩
  by_contra allocated
  exact outside (List.mem_toFinset.mpr (rep.owned fresh allocated))

/-- The chunks and the list are determined by the queue. -/
theorem unique {cs' : List (Nat × QueueChunk α)} {content' : List α} (first : Represents lim queue cs content)
    (second : Represents lim queue cs' content') : cs = cs' ∧ content = content' := by
  have same := first.path.unique second.path
  subst same
  exact ⟨rfl, List.map_injective_iff.mpr (Option.some_injective α) (first.content.symm.trans second.content)⟩

end Represents
end PCProject
