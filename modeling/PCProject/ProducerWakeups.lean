import PCProject.QueueWakeups

namespace PCProject
variable {ι κ α : Type} [DecidableEq ι] [DecidableEq κ] [Fintype ι] [Fintype κ]
variable {lim : QueueLimits} {single : Bool} {s s' : MonitorState ι κ α} {action : MonitorAction ι κ}
  {queue : Queue α} {cs cs' : List (Nat × QueueChunk α)} {content : List α} {task : α}

/-- The blocking condition of QUEUE_add. -/
def AddBlocked (lim : QueueLimits) (queue : Queue α) : Prop :=
  queueAddWaits lim.chunkSize lim.maxLiveChunks queue = some true

instance (lim : QueueLimits) (queue : Queue α) : Decidable (AddBlocked lim queue) :=
  inferInstanceAs (Decidable (_ = _))

/-- A producer is asleep, none is signalled, and yet QUEUE_add would not block. -/
def StrandedProducer (lim : QueueLimits) (s : MonitorState ι κ α) : Prop :=
  (∃ t, s.writers t = .asleep) ∧ (∀ t, s.writers t ≠ .signalled) ∧ ¬AddBlocked lim s.queue

omit [DecidableEq ι] [DecidableEq κ] [Fintype ι] in
theorem StrandedProducer.sleepers (stranded : StrandedProducer lim s) :
    s.writers.sleepers.Nonempty ∧ s.writers.signalled = ∅ := by
  obtain ⟨⟨t, asleep⟩, none, -⟩ := stranded
  exact ⟨⟨t, WaitSet.mem_sleepers.mpr asleep⟩,
    Finset.eq_empty_of_forall_notMem fun u member => none u (WaitSet.mem_signalled.mp member)⟩

/-- With one slot in each chunk QUEUE_add blocks exactly when all slots are taken. -/
theorem Represents.addBlocked_of_one (rep : Represents lim queue cs content) (one : lim.chunkSize = 1)
    (taken : lim.maxLiveChunks ≤ content.length) : AddBlocked lim queue := by
  obtain ⟨init, b, back, split⟩ := rep.at_back
  obtain ⟨p, c, rest, rfl, -⟩ := rep.at_front
  have counted := rep.length
  have room : c.next < lim.chunkSize := rep.room _ rfl
  have limit := rep.limit
  have bound := (rep.sound_at (show (b, back) ∈ (p, c) :: rest by simp [split])).2.1
  simp only [split, List.getLast_append_singleton, one, Nat.mul_one] at counted
  simp only [List.length_cons] at limit
  rw [AddBlocked, rep.addWaits split]
  simp only [Option.some.injEq, decide_eq_true_eq, List.length_cons]
  omega

/-- The invariant for chunks of one slot: a sleeping producer is covered for every free slot. -/
theorem MonitorInv.move_of_one (inv : MonitorInv lim s cs content) (one : lim.chunkSize = 1)
    (covered : s.writers.Covers (lim.maxLiveChunks - content.length))
    (move : MonitorMove lim single s action s') :
    ∃ cs' content', MonitorInv lim s' cs' content' ∧
      s'.writers.Covers (lim.maxLiveChunks - content'.length) := by
  obtain ⟨cs', content', inv'⟩ := inv.move move
  refine ⟨cs', content', inv', ?_⟩
  cases move with
  | get up known can body =>
    obtain ⟨cs₁, rest, rfl, rep₁, -⟩ := inv.rep.get body (by simpa using inv.getWaits known)
    obtain ⟨-, rfl⟩ := rep₁.unique inv'.rep
    refine (covered.signal can).mono ?_
    rw [List.length_cons]
    omega
  | addSleep pending up known =>
    obtain ⟨-, rfl⟩ := inv.rep.unique inv'.rep
    have taken := inv.rep.length_of_waits known
    rw [one, Nat.mul_one] at taken
    have room : lim.maxLiveChunks - content.length = 0 := by omega
    rw [room]
    exact .none _
  | add pending up known can body =>
    obtain ⟨cs₁, rep₁, -⟩ := inv.rep.add known body
    obtain ⟨-, rfl⟩ := rep₁.unique inv'.rep
    refine (covered.leave up).mono ?_
    rw [List.length_append, List.length_singleton]
    omega
  | wakeWriter down =>
    obtain ⟨-, rfl⟩ := inv.rep.unique inv'.rep
    exact covered.wakeup
  | getSleep up known =>
    obtain ⟨-, rfl⟩ := inv.rep.unique inv'.rep
    exact covered
  | wakeReader down =>
    obtain ⟨-, rfl⟩ := inv.rep.unique inv'.rep
    exact covered
  | countDispatched =>
    obtain ⟨-, rfl⟩ := (inv.rep.setDispatched _).unique inv'.rep
    exact covered
  | registerCompletion =>
    obtain ⟨-, rfl⟩ := (inv.rep.setDispatched _).unique inv'.rep
    exact covered

theorem not_stranded_of_one (one : lim.chunkSize = 1) (reach : (monitorSystem lim single ι κ α).Reach s) :
    ¬StrandedProducer lim s := by
  have inv : ∃ cs content, MonitorInv lim s cs content ∧ s.writers.Covers (lim.maxLiveChunks - content.length) := by
    refine reach.invariant
      (I := fun s => ∃ cs content, MonitorInv lim s cs content ∧
        s.writers.Covers (lim.maxLiveChunks - content.length)) ?_ ?_
    · intro s initial
      obtain ⟨fresh, todo, rfl⟩ := initial
      exact ⟨_, _, .start fresh todo, .awake (fun _ => rfl) _⟩
    · intro before action after _ old step
      obtain ⟨cs, content, inv, covered⟩ := old
      exact inv.move_of_one one covered (monitorStep_iff.mp step)
  obtain ⟨cs, content, inv, covered⟩ := inv
  intro stranded
  obtain ⟨sleeper, none⟩ := stranded.sleepers
  have room := covered sleeper
  rw [none, Finset.card_empty] at room
  exact stranded.2.2 (inv.rep.addBlocked_of_one one (by omega))

/-- With one producer a producer only sleeps while it would block or while it is the one that
every signal moves. -/
theorem not_stranded_of_subsingleton [Subsingleton κ] (reach : (monitorSystem lim single ι κ α).Reach s) :
    ¬StrandedProducer lim s := by
  refine reach.invariant (I := fun s => ¬StrandedProducer lim s) ?_ ?_
  · intro s initial stranded
    obtain ⟨fresh, todo, rfl⟩ := initial
    obtain ⟨⟨t, asleep⟩, -⟩ := stranded
    cases asleep
  · intro s action s' _ fine step stranded
    cases monitorStep_iff.mp step with
    | getSleep => exact fine stranded
    | get up known can body =>
      obtain ⟨⟨t, asleep⟩, none, -⟩ := stranded
      have before := s.writers.sleepers_signal_subset _ (WaitSet.mem_sleepers.mpr asleep)
      obtain ⟨u, moved⟩ := can.2.1 ⟨t, before⟩
      exact none u (by simp [WaitSet.signal, moved])
    | addSleep pending up known => exact stranded.2.2 known
    | @add t woken fresh task rest queue pending up known can body =>
      obtain ⟨⟨u, asleep⟩, -⟩ := stranded
      have same := Subsingleton.elim u t
      subst same
      simp [WaitSet.leave] at asleep
    | wakeReader => exact fine stranded
    | @wakeWriter t down => exact stranded.2.1 t (by simp [WaitSet.wakeup])
    | countDispatched => exact fine stranded
    | registerCompletion => exact fine stranded

/-- Without consumers nothing is ever taken out, so a producer that slept once stays blocked. -/
theorem not_stranded_of_isEmpty [IsEmpty ι] (reach : (monitorSystem lim single ι κ α).Reach s) :
    ¬StrandedProducer lim s := by
  have blocked : ∀ t, s.writers t ≠ .awake → AddBlocked lim s.queue := by
    refine reach.invariant (I := fun s => ∀ t, s.writers t ≠ .awake → AddBlocked lim s.queue) ?_ ?_
    · intro s initial t waiting
      obtain ⟨fresh, todo, rfl⟩ := initial
      exact absurd rfl waiting
    · intro s action s' _ blocked step u waiting
      cases monitorStep_iff.mp step with
      | @getSleep t => exact isEmptyElim t
      | @get t => exact isEmptyElim t
      | addSleep pending up known => exact known
      | @add t woken fresh task rest queue pending up known can body =>
        by_cases same : u = t
        · subst same
          simp [WaitSet.leave] at waiting
        · have still := blocked u (by simpa [WaitSet.leave, same] using waiting)
          rw [AddBlocked, known] at still
          cases still
      | wakeReader => exact blocked u waiting
      | @wakeWriter t down =>
        by_cases same : u = t
        · exact blocked t (by simp [down])
        · exact blocked u (by simpa [WaitSet.wakeup, same] using waiting)
      | countDispatched => exact blocked u waiting
      | registerCompletion => exact blocked u waiting
  intro stranded
  obtain ⟨⟨t, asleep⟩, -, free⟩ := stranded
  exact free (blocked t (by simp [asleep]))

end PCProject
