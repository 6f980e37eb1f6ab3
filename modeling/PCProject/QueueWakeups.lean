import PCProject.QueueMonitor
import PCProject.QueueCapacity

namespace PCProject
variable {ι κ α : Type} [DecidableEq ι] [DecidableEq κ] [Fintype ι] [Fintype κ]
variable {lim : QueueLimits} {single : Bool} {s s' : MonitorState ι κ α} {action : MonitorAction ι κ}
  {cs : List (Nat × QueueChunk α)} {content : List α}

/-- The invariant of the queue under its two condition variables. The tasks popped so far and
the tasks still queued are the tasks added, in order. A sleeping consumer is covered for every
queued task; a sleeping producer only for an empty queue. -/
structure MonitorInv (lim : QueueLimits) (s : MonitorState ι κ α) (cs : List (Nat × QueueChunk α))
    (content : List α) : Prop where
  rep : Represents lim s.queue cs content
  order : s.popped.map Prod.snd ++ content = s.added
  readers : s.readers.Covers content.length
  writers : s.writers.Covers (if content = [] then 1 else 0)

/-- The counter of dispatched tasks plays no part in the representation. -/
theorem Represents.setDispatched {queue : Queue α} (rep : Represents lim queue cs content) (dispatched : Int) :
    Represents lim { queue with dispatched := dispatched } cs content :=
  { rep with }

omit [DecidableEq ι] [DecidableEq κ] in
theorem MonitorInv.start (fresh : Nat) (todo : κ → List α) :
    MonitorInv lim (MonitorState.start lim fresh todo : MonitorState ι κ α) [(fresh, .empty lim.chunkSize)] [] where
  rep := queueCreate_represents lim fresh
  order := rfl
  readers := .awake (fun _ => rfl) _
  writers := .awake (fun _ => rfl) _

omit [DecidableEq ι] [DecidableEq κ] in
theorem MonitorInv.getWaits (inv : MonitorInv lim s cs content) {waits : Bool}
    (known : queueGetWaits s.queue = some waits) : waits = decide (content = []) :=
  Option.some.inj (known.symm.trans inv.rep.getWaits)

omit [DecidableEq ι] [DecidableEq κ] in
theorem MonitorInv.nonempty_of_addWaits (inv : MonitorInv lim s cs content)
    (known : queueAddWaits lim.chunkSize lim.maxLiveChunks s.queue = some true) : content ≠ [] := by
  rintro rfl
  exact Nat.not_lt_zero _ (inv.rep.length_of_waits known)

theorem MonitorInv.move (inv : MonitorInv lim s cs content) (move : MonitorMove lim single s action s') :
    ∃ cs' content', MonitorInv lim s' cs' content' := by
  cases move with
  | getSleep up known =>
    have empty : content = [] := by simpa using inv.getWaits known
    subst empty
    exact ⟨cs, [], inv.rep, inv.order, .none _, inv.writers⟩
  | get up known can body =>
    have nonempty : content ≠ [] := by simpa using inv.getWaits known
    obtain ⟨cs', rest, rfl, rep', -⟩ := inv.rep.get body nonempty
    have unit : (if rest = [] then 1 else 0) ≤ 0 + 1 := by split <;> omega
    exact ⟨cs', rest, rep', by simpa using inv.order, inv.readers.leave up,
      ((WaitSet.Covers.none _).signal can).mono unit⟩
  | addSleep pending up known =>
    have nonempty := inv.nonempty_of_addWaits known
    refine ⟨cs, content, inv.rep, inv.order, inv.readers, ?_⟩
    rw [if_neg nonempty]
    exact .none _
  | add pending up known can body =>
    obtain ⟨cs', rep', -⟩ := inv.rep.add known body
    refine ⟨cs', _, rep', by simp [← inv.order], ?_, ?_⟩
    · simpa using inv.readers.signal can
    · rw [if_neg (by simp)]
      exact .none _
  | wakeReader down => exact ⟨cs, content, inv.rep, inv.order, inv.readers.wakeup, inv.writers⟩
  | wakeWriter down => exact ⟨cs, content, inv.rep, inv.order, inv.readers, inv.writers.wakeup⟩
  | countDispatched => exact ⟨cs, content, inv.rep.setDispatched _, inv.order, inv.readers, inv.writers⟩
  | registerCompletion => exact ⟨cs, content, inv.rep.setDispatched _, inv.order, inv.readers, inv.writers⟩

theorem monitor_inv (reach : (monitorSystem lim single ι κ α).Reach s) :
    ∃ cs content, MonitorInv lim s cs content := by
  refine reach.invariant (I := fun s => ∃ cs content, MonitorInv lim s cs content) ?_ ?_
  · intro s initial
    obtain ⟨fresh, todo, rfl⟩ := initial
    exact ⟨_, _, .start fresh todo⟩
  · intro before action after _ old step
    obtain ⟨cs, content, inv⟩ := old
    exact inv.move (monitorStep_iff.mp step)

omit [DecidableEq ι] [DecidableEq κ] in
/-- Consumers and producers cannot all be asleep: with nobody signalled, a sleeping consumer
means an empty queue and a sleeping producer a queue that is not empty. -/
theorem MonitorInv.not_all_asleep (inv : MonitorInv lim s cs content) (reader : s.readers.sleepers.Nonempty)
    (writer : s.writers.sleepers.Nonempty) (noReader : s.readers.signalled = ∅)
    (noWriter : s.writers.signalled = ∅) : False := by
  have queued := inv.readers reader
  rw [noReader, Finset.card_empty] at queued
  have empty : content = [] := List.length_eq_zero_iff.mp (Nat.le_zero.mp queued)
  have covered := inv.writers writer
  rw [if_pos empty, noWriter, Finset.card_empty] at covered
  omega

/-- No wakeup is lost, for any number of producers and consumers and any schedule. -/
theorem queue_wakeups (reach : (monitorSystem lim single ι κ α).Reach s) :
    (∃ cs content, Represents lim s.queue cs content ∧
      ((∃ t, s.readers t = .asleep) → content.length ≤ s.readers.signalled.card)) ∧
    ¬((∃ t, s.readers t = .asleep) ∧ (∃ t, s.writers t = .asleep) ∧
      (∀ t, s.readers t ≠ .signalled) ∧ ∀ t, s.writers t ≠ .signalled) := by
  obtain ⟨cs, content, inv⟩ := monitor_inv reach
  refine ⟨⟨cs, content, inv.rep, ?_⟩, ?_⟩
  · intro sleeping
    obtain ⟨t, asleep⟩ := sleeping
    exact inv.readers ⟨t, WaitSet.mem_sleepers.mpr asleep⟩
  · intro all
    obtain ⟨⟨t, reader⟩, ⟨u, writer⟩, noReader, noWriter⟩ := all
    exact inv.not_all_asleep ⟨t, WaitSet.mem_sleepers.mpr reader⟩ ⟨u, WaitSet.mem_sleepers.mpr writer⟩
      (Finset.eq_empty_of_forall_notMem fun v member => noReader v (WaitSet.mem_signalled.mp member))
      (Finset.eq_empty_of_forall_notMem fun v member => noWriter v (WaitSet.mem_signalled.mp member))

/-- Two consumers find the smallest queue empty and the first task signals one of them. -/
theorem queue_wakeups_smallest :
    ∃ s : MonitorState Bool Unit Nat, s.readers false = .asleep ∧
      ∃ cs content, Represents .smallest s.queue cs content ∧ content.length ≤ s.readers.signalled.card := by
  have run : (monitorSystem .smallest true Bool Unit Nat).exec (.start .smallest 0 fun _ => [7])
      [.get true ∅ 1, .get false ∅ 1, .add () {true} 1] = some _ := rfl
  obtain ⟨⟨cs, content, rep, covered⟩, -⟩ := queue_wakeups (System.Reach.exec (.start ⟨0, _, rfl⟩) run)
  exact ⟨_, rfl, cs, content, rep, covered ⟨false, rfl⟩⟩

end PCProject
