import PCProject.ProducerWakeups

namespace PCProject
variable {ι κ α : Type} [DecidableEq ι] [DecidableEq κ] [Fintype ι] [Fintype κ]
variable {lim : QueueLimits} {single : Bool} {s : MonitorState ι κ α} {queue : Queue α}
  {cs cs₁ cs₂ : List (Nat × QueueChunk α)} {content : List α} {task : α}

/-- When a section of QUEUE_get ends the blocking, the slots it frees are more than the next
section of QUEUE_add takes, if a chunk has several slots. -/
theorem add_leaves_room (several : 1 < lim.chunkSize) (get : GetShape lim cs cs₁) (add : AddShape lim task cs₁ cs₂)
    (blocked : cs.getLast?.map (fun c => c.2.filled) = some lim.chunkSize ∧ cs.length = lim.maxLiveChunks)
    (free : ¬(cs₁.getLast?.map (fun c => c.2.filled) = some lim.chunkSize ∧ cs₁.length = lim.maxLiveChunks)) :
    ¬(cs₂.getLast?.map (fun c => c.2.filled) = some lim.chunkSize ∧ cs₂.length = lim.maxLiveChunks) := by
  cases get with
  | @keep p c rest more =>
    refine absurd ⟨?_, by simpa using blocked.2⟩ free
    cases rest with
    | nil => simpa using blocked.1
    | cons d rest => simpa using blocked.1
  | @drop p c d rest last =>
    rw [List.getLast?_cons_cons] at blocked
    generalize chunks : d :: rest = cs₁ at add blocked
    cases add with
    | fill space =>
      simp only [List.getLast?_append, List.getLast?_singleton, Option.some_or, Option.map_some,
        Option.some.injEq] at blocked
      omega
    | grow isFull =>
      simp only [List.getLast?_append, List.getLast?_cons_cons, List.getLast?_singleton, Option.some_or,
        Option.map_some, Option.some.injEq, QueueChunk.push, QueueChunk.empty]
      omega
  | @replace p c fresh last =>
    generalize chunks : [(fresh, QueueChunk.empty lim.chunkSize)] = cs₁ at add
    cases add with
    | @fill init b c space =>
      obtain ⟨rfl, same⟩ := List.append_inj' (show [] ++ [(fresh, QueueChunk.empty lim.chunkSize)] = init ++ [(b, c)]
        from chunks) rfl
      cases List.singleton_inj.mp same
      simp only [List.nil_append, List.getLast?_singleton, Option.map_some, Option.some.injEq, QueueChunk.push,
        QueueChunk.empty]
      omega
    | @grow init b c fresh' isFull =>
      obtain ⟨rfl, same⟩ := List.append_inj' (show [] ++ [(fresh, QueueChunk.empty lim.chunkSize)] = init ++ [(b, c)]
        from chunks) rfl
      cases List.singleton_inj.mp same
      simp only [QueueChunk.empty] at isFull
      omega

/-- A reachable state in which every consumer is outside QUEUE_get. -/
def QuietReaders (lim : QueueLimits) (single : Bool) (s : MonitorState ι κ α) : Prop :=
  (monitorSystem lim single ι κ α).Reach s ∧ ∀ t, s.readers t = .awake

/-- A producer outside the wait adds its next task; there is nobody to signal. -/
theorem QuietReaders.add {t : κ} {rest : List α} (quiet : QuietReaders lim single s)
    (rep : Represents lim s.queue cs content) (pending : s.todo t = task :: rest) (up : s.writers t ≠ .asleep)
    (free : queueAddWaits lim.chunkSize lim.maxLiveChunks s.queue = some false) :
    ∃ (s' : MonitorState ι κ α) (cs' : _), QuietReaders lim single s' ∧
      Represents lim s'.queue cs' (content ++ [task]) ∧
      AddShape lim task cs cs' ∧ s'.writers = s.writers.leave t ∧ s'.todo = Function.update s.todo t rest := by
  obtain ⟨fresh, unused⟩ := rep.exists_free
  obtain ⟨queue', body⟩ := rep.add_total task unused
  obtain ⟨cs', rep', shape⟩ := rep.add free body
  have asleep : ¬s.readers.sleepers.Nonempty := by
    intro some
    obtain ⟨u, member⟩ := some
    simp [quiet.2 u] at member
  have can : s.readers.CanSignal single ∅ :=
    ⟨Finset.empty_subset _, fun sleeper => absurd sleeper asleep, fun _ => by simp⟩
  have step : (monitorSystem lim single ι κ α).step s (.add t ∅ fresh) = some _ :=
    monitorStep_iff.mpr (.add pending up free can body)
  refine ⟨_, cs', ⟨quiet.1.next step, fun u => ?_⟩, rep', shape, rfl, rfl⟩
  simpa [WaitSet.signal] using quiet.2 u

/-- A producer outside the wait goes to sleep on a full queue. -/
theorem QuietReaders.addSleep {t : κ} {rest : List α} (quiet : QuietReaders lim single s)
    (pending : s.todo t = task :: rest) (up : s.writers t ≠ .asleep) (blocked : AddBlocked lim s.queue) :
    QuietReaders lim single ({ s with writers := s.writers.sleep t } : MonitorState ι κ α) :=
  ⟨quiet.1.next (a := .add t ∅ 0) (monitorStep_iff.mpr (MonitorMove.addSleep pending up blocked)), quiet.2⟩

/-- A consumer pops a task and its signal moves the one producer that is named. -/
theorem QuietReaders.get {t : κ} (u : ι) (quiet : QuietReaders lim single s)
    (rep : Represents lim s.queue cs content) (nonempty : content ≠ []) (down : s.writers t = .asleep) :
    ∃ (s' : MonitorState ι κ α) (cs' : _) (first : α) (rest : List α), content = first :: rest ∧
      QuietReaders lim single s' ∧ Represents lim s'.queue cs' rest ∧
      GetShape lim cs cs' ∧ s'.writers = s.writers.signal {t} ∧ s'.todo = s.todo := by
  obtain ⟨fresh, unused⟩ := rep.exists_free
  obtain ⟨task, queue', body⟩ := rep.get_total nonempty unused
  obtain ⟨cs', rest, split, rep', shape⟩ := rep.get body nonempty
  have can : s.writers.CanSignal single {t} :=
    ⟨by simpa using down, fun _ => Finset.singleton_nonempty t, fun _ => by simp⟩
  have waits : queueGetWaits s.queue = some false := by rw [rep.getWaits, decide_eq_false nonempty]
  have step : (monitorSystem lim single ι κ α).step s (.get u {t} fresh) = some _ :=
    monitorStep_iff.mpr (.get (by rw [quiet.2 u]; nofun) waits can body)
  refine ⟨_, cs', task, rest, split, ⟨quiet.1.next step, fun v => ?_⟩, rep', shape, rfl, rfl⟩
  by_cases same : v = u
  · subst same; simp [WaitSet.leave]
  · simpa [WaitSet.leave, same] using quiet.2 v

/-- One producer fills the queue while nobody else does anything. -/
theorem exists_blocked {p q : κ} (apart : p ≠ q) (space : Nat) (quiet : QuietReaders lim single s)
    (rep : Represents lim s.queue cs content) (idle : ∀ t, s.writers t = .awake)
    (enough : space + content.length = lim.maxLiveChunks * lim.chunkSize) (tasks : space < (s.todo p).length)
    (waiting : s.todo q ≠ []) :
    ∃ s' : MonitorState ι κ α, QuietReaders lim single s' ∧ (∀ t, s'.writers t = .awake) ∧
      AddBlocked lim s'.queue ∧ s'.todo p ≠ [] ∧ s'.todo q ≠ [] := by
  induction space generalizing s cs content with
  | zero =>
    obtain ⟨waits, known⟩ := rep.addWaits_total
    cases waits with
    | true => exact ⟨s, quiet, idle, known, List.ne_nil_of_length_pos tasks, waiting⟩
    | false =>
      obtain ⟨task, rest, pending⟩ := List.exists_cons_of_length_pos tasks
      obtain ⟨s', cs', -, rep', -⟩ := quiet.add rep pending (by rw [idle p]; nofun) known
      have bound := rep'.length_le
      rw [List.length_append, List.length_singleton] at bound
      omega
  | succ space ih =>
    obtain ⟨waits, known⟩ := rep.addWaits_total
    obtain ⟨task, rest, pending⟩ := List.exists_cons_of_length_pos (show 0 < (s.todo p).length by omega)
    cases waits with
    | true => exact ⟨s, quiet, idle, known, by simp [pending], waiting⟩
    | false =>
      obtain ⟨s', cs', quiet', rep', -, writers, todo⟩ := quiet.add rep pending (by rw [idle p]; nofun) known
      refine ih quiet' rep' (fun t => ?_) ?_ ?_ ?_
      · rw [writers]
        by_cases same : t = p
        · subst same; simp [WaitSet.leave]
        · simpa [WaitSet.leave, same] using idle t
      · rw [List.length_append, List.length_singleton]
        omega
      · rw [pending, List.length_cons] at tasks
        rw [todo, Function.update_self]
        omega
      · rw [todo, Function.update_of_ne apart.symm]
        exact waiting

/-- Two producers asleep on a full queue: each get signals the same one, which goes back to
sleep until a chunk is dropped, and then adds without waking the other. -/
theorem exists_stranded {p q : κ} (u : ι) (apart : p ≠ q) (several : 1 < lim.chunkSize)
    (quiet : QuietReaders lim single s) (rep : Represents lim s.queue cs content)
    (first : s.writers p = .asleep) (second : s.writers q = .asleep)
    (others : ∀ t, t ≠ p → t ≠ q → s.writers t = .awake)
    (blocked : AddBlocked lim s.queue) (tasks : s.todo p ≠ []) :
    ∃ s' : MonitorState ι κ α, (monitorSystem lim single ι κ α).Reach s' ∧ StrandedProducer lim s' := by
  induction content generalizing s cs with
  | nil => exact absurd (rep.length_of_waits blocked) (Nat.not_lt_zero _)
  | cons head rest ih =>
    obtain ⟨s₁, cs₁, _, rest₁, split, quiet₁, rep₁, getShape, writers₁, todo₁⟩ :=
      quiet.get u rep (List.cons_ne_nil _ _) first
    cases split
    have signalled : s₁.writers p = .signalled := by simp [writers₁, WaitSet.signal]
    have still : s₁.writers q = .asleep := by simp [writers₁, WaitSet.signal, apart.symm, second]
    have idle : ∀ t, t ≠ p → t ≠ q → s₁.writers t = .awake := fun t noP noQ => by
      simp [writers₁, WaitSet.signal, noP, others t noP noQ]
    obtain ⟨task, todo, pending⟩ := List.exists_cons_of_ne_nil (show s₁.todo p ≠ [] by rw [todo₁]; exact tasks)
    obtain ⟨waits, known⟩ := rep₁.addWaits_total
    cases waits with
    | true =>
      have quiet₂ := quiet₁.addSleep pending (by simp [signalled]) known
      refine ih quiet₂ rep₁ ?_ ?_ ?_ known (by simp [pending])
      · simp [WaitSet.sleep]
      · simpa [WaitSet.sleep, apart.symm] using still
      · intro t noP noQ
        simpa [WaitSet.sleep, noP] using idle t noP noQ
    | false =>
      obtain ⟨s₂, cs₂, quiet₂, rep₂, addShape, writers₂, -⟩ :=
        quiet₁.add rep₁ pending (by simp [signalled]) known
      refine ⟨s₂, quiet₂.1, ⟨q, ?_⟩, fun t => ?_, ?_⟩
      · simpa [writers₂, WaitSet.leave, apart.symm] using still
      · by_cases isP : t = p
        · subst isP; simp [writers₂, WaitSet.leave]
        by_cases isQ : t = q
        · subst isQ; simp [writers₂, WaitSet.leave, isP, still]
        · simp [writers₂, WaitSet.leave, isP, idle t isP isQ]
      · rw [AddBlocked, rep.addWaits_last, Option.some.injEq, decide_eq_true_eq] at blocked
        rw [rep₁.addWaits_last, Option.some.injEq, decide_eq_false_iff_not] at known
        rw [AddBlocked, rep₂.addWaits_last, Option.some.injEq, decide_eq_true_eq]
        exact add_leaves_room several getShape addShape blocked known

theorem exists_stranded_producer [Inhabited α] (several : 1 < lim.chunkSize) (producers : 1 < Fintype.card κ)
    [Nonempty ι] :
    ∃ s : MonitorState ι κ α, (monitorSystem lim single ι κ α).Reach s ∧ StrandedProducer lim s := by
  obtain ⟨p, q, apart⟩ := Fintype.one_lt_card_iff.mp producers
  obtain ⟨u⟩ := ‹Nonempty ι›
  let tasks := List.replicate (lim.maxLiveChunks * lim.chunkSize + 1) (default : α)
  have quiet : QuietReaders lim single (.start lim 0 fun _ => tasks : MonitorState ι κ α) :=
    ⟨.start ⟨0, _, rfl⟩, fun _ => rfl⟩
  obtain ⟨s, quiet, idle, blocked, first, second⟩ :=
    exists_blocked apart (lim.maxLiveChunks * lim.chunkSize) quiet (queueCreate_represents lim 0) (fun _ => rfl) rfl
      (by simp [MonitorState.start, tasks]) (by simp [MonitorState.start, tasks])
  obtain ⟨task, rest, pending⟩ := List.exists_cons_of_ne_nil first
  obtain ⟨task', rest', pending'⟩ := List.exists_cons_of_ne_nil second
  have quiet₁ := quiet.addSleep pending (by rw [idle p]; nofun) blocked
  have quiet₂ := quiet₁.addSleep (t := q) pending' (by simp [WaitSet.sleep, apart.symm, idle q]) blocked
  obtain ⟨cs, content, inv⟩ := monitor_inv quiet₂.1
  refine exists_stranded u apart several quiet₂ inv.rep ?_ ?_ ?_ blocked (by simp [pending])
  · simp [WaitSet.sleep, apart]
  · simp [WaitSet.sleep]
  · intro t noP noQ
    simp [WaitSet.sleep, noP, noQ, idle t]

/-- No producer stays asleep beside free space exactly when every chunk has one slot, or there
are not two producers, or there is no consumer to free a chunk. -/
theorem producer_sleeps_only_if_blocked_iff [Inhabited α] (lim : QueueLimits) (single : Bool) :
    (∀ s : MonitorState ι κ α, (monitorSystem lim single ι κ α).Reach s → (∃ t, s.writers t = .asleep) →
      (∀ t, s.writers t ≠ .signalled) → AddBlocked lim s.queue) ↔
      lim.chunkSize = 1 ∨ Fintype.card κ ≤ 1 ∨ IsEmpty ι := by
  constructor
  · intro always
    by_contra otherwise
    simp only [not_or, not_le, not_isEmpty_iff] at otherwise
    obtain ⟨several, producers, consumer⟩ := otherwise
    have positive := lim.chunkSize_pos
    obtain ⟨s, reach, asleep, none, free⟩ : ∃ s : MonitorState ι κ α,
        (monitorSystem lim single ι κ α).Reach s ∧ StrandedProducer lim s :=
      exists_stranded_producer (by omega) producers
    exact free (always s reach asleep none)
  · intro condition s reach asleep none
    have fine : ¬StrandedProducer lim s := by
      rcases condition with one | few | empty
      · exact not_stranded_of_one one reach
      · have := Fintype.card_le_one_iff_subsingleton.mp few
        exact not_stranded_of_subsingleton reach
      · exact not_stranded_of_isEmpty reach
    by_contra free
    exact fine ⟨asleep, none, free⟩

/-- Two producers and one consumer on one chunk of two slots. Both producers sleep on the full
queue; the second get ends the blocking, the producer it signalled adds, and the other one
sleeps on beside a free slot. -/
theorem producer_sleeps_beside_free_slot :
    ∃ s : MonitorState Unit Bool Nat,
      (monitorSystem .twoSlots true Unit Bool Nat).Reach s ∧
      s.writers true = .asleep ∧ (∀ t, s.writers t ≠ .signalled) ∧
      ¬AddBlocked .twoSlots s.queue := by
  have run : (monitorSystem .twoSlots true Unit Bool Nat).exec
      (.start .twoSlots 0 fun _ => [1, 2, 3, 4])
      [.add false ∅ 1, .add false ∅ 1, .add false ∅ 1, .add true ∅ 1,
        .get () {false} 1, .add false ∅ 1, .get () {false} 1, .add false ∅ 1] = some _ := rfl
  exact ⟨_, System.Reach.exec (.start ⟨0, _, rfl⟩) run, rfl, by decide, by decide⟩

end PCProject
