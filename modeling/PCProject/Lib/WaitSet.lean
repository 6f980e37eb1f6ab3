import Mathlib.Data.Fintype.Card
import Mathlib.Data.Finset.Card

namespace PCProject

/-- Where a thread stands towards one condition variable. A signalled thread has been
moved out of the sleepers and has yet to reacquire the mutex and test its condition. -/
inductive Wait
  | awake
  | asleep
  | signalled
  deriving DecidableEq

/-- The threads of one condition variable. -/
abbrev WaitSet (ι : Type) := ι → Wait

namespace WaitSet
variable {ι : Type} [DecidableEq ι]

def sleep (w : WaitSet ι) (t : ι) : WaitSet ι := Function.update w t .asleep

def leave (w : WaitSet ι) (t : ι) : WaitSet ι := Function.update w t .awake

/-- A wakeup of one sleeper that no signal caused. -/
def wakeup (w : WaitSet ι) (t : ι) : WaitSet ι := Function.update w t .signalled

/-- A signal that moves the threads of `woken` out of the sleepers. -/
def signal (w : WaitSet ι) (woken : Finset ι) : WaitSet ι := fun t => if t ∈ woken then .signalled else w t

variable [Fintype ι]

def sleepers (w : WaitSet ι) : Finset ι := Finset.univ.filter fun t => w t = .asleep

def signalled (w : WaitSet ι) : Finset ι := Finset.univ.filter fun t => w t = .signalled

/-- The sets of threads that one signal may move: sleepers only, and at least one when
there is one. With `single` the signal moves at most one thread. -/
def CanSignal (single : Bool) (w : WaitSet ι) (woken : Finset ι) : Prop :=
  woken ⊆ w.sleepers ∧ (w.sleepers.Nonempty → woken.Nonempty) ∧ (single = true → woken.card ≤ 1)

instance (single : Bool) (w : WaitSet ι) (woken : Finset ι) : Decidable (w.CanSignal single woken) :=
  inferInstanceAs (Decidable (_ ∧ _ ∧ _))

omit [DecidableEq ι] in
@[simp] theorem mem_sleepers {w : WaitSet ι} {t : ι} : t ∈ w.sleepers ↔ w t = .asleep := by
  simp [sleepers]

omit [DecidableEq ι] in
@[simp] theorem mem_signalled {w : WaitSet ι} {t : ι} : t ∈ w.signalled ↔ w t = .signalled := by
  simp [signalled]

omit [DecidableEq ι] in
/-- Some set of threads is always available to a signal. -/
theorem exists_canSignal (single : Bool) (w : WaitSet ι) : ∃ woken, w.CanSignal single woken := by
  by_cases some : w.sleepers.Nonempty
  · obtain ⟨t, member⟩ := some
    exact ⟨{t}, by simpa using member, fun _ => Finset.singleton_nonempty t, fun _ => by simp⟩
  · exact ⟨∅, Finset.empty_subset _, fun sleeper => absurd sleeper some, fun _ => by simp⟩

theorem sleepers_leave {w : WaitSet ι} {t : ι} (up : w t ≠ .asleep) : (w.leave t).sleepers = w.sleepers := by
  ext u
  by_cases same : u = t
  · subst same; simp [leave, up]
  · simp [leave, same]

theorem signalled_leave (w : WaitSet ι) (t : ι) : (w.leave t).signalled = w.signalled.erase t := by
  ext u
  by_cases same : u = t
  · subst same; simp [leave]
  · simp [leave, same]

theorem sleepers_signal_subset (w : WaitSet ι) (woken : Finset ι) :
    (w.signal woken).sleepers ⊆ w.sleepers := by
  intro u member
  simp only [mem_sleepers, signal] at member ⊢
  split at member
  · cases member
  · exact member

theorem signalled_signal (w : WaitSet ι) (woken : Finset ι) :
    (w.signal woken).signalled = w.signalled ∪ woken := by
  ext u
  by_cases moved : u ∈ woken <;> simp [signal, moved]

theorem sleepers_wakeup_subset (w : WaitSet ι) (t : ι) : (w.wakeup t).sleepers ⊆ w.sleepers := by
  intro u member
  by_cases same : u = t
  · subst same; simp [wakeup] at member
  · simpa [wakeup, same] using member

theorem signalled_wakeup (w : WaitSet ι) (t : ι) : (w.wakeup t).signalled = insert t w.signalled := by
  ext u
  by_cases same : u = t
  · subst same; simp [wakeup]
  · simp [wakeup, same]

/-- The counting invariant of a condition variable that announces units of some
resource: while a thread sleeps, every unit has a signalled thread on its way to it. -/
def Covers (w : WaitSet ι) (units : Nat) : Prop := w.sleepers.Nonempty → units ≤ w.signalled.card

omit [DecidableEq ι] in
theorem Covers.mono {w : WaitSet ι} {more units : Nat} (covered : w.Covers more) (less : units ≤ more) :
    w.Covers units :=
  fun sleeper => less.trans (covered sleeper)

omit [DecidableEq ι] in
theorem Covers.none (w : WaitSet ι) : w.Covers 0 := fun _ => Nat.zero_le _

omit [DecidableEq ι] in
theorem Covers.awake {w : WaitSet ι} (up : ∀ t, w t = .awake) (units : Nat) : w.Covers units := by
  intro sleeping
  obtain ⟨t, member⟩ := sleeping
  simp [up t] at member

/-- One new unit may appear together with one signal. -/
theorem Covers.signal {w : WaitSet ι} {units : Nat} {single : Bool} {woken : Finset ι}
    (covered : w.Covers units) (can : w.CanSignal single woken) : (w.signal woken).Covers (units + 1) := by
  intro sleeper
  have before := sleeper.mono (w.sleepers_signal_subset woken)
  have moved := can.2.1 before
  have apart : Disjoint w.signalled woken := by
    rw [Finset.disjoint_left]
    intro t signalled inWoken
    have asleep := can.1 inWoken
    simp only [mem_signalled, mem_sleepers] at signalled asleep
    rw [signalled] at asleep
    cases asleep
  rw [signalled_signal, Finset.card_union_of_disjoint apart]
  have bound := covered before
  have positive := moved.card_pos
  omega

/-- A thread that leaves takes one unit with it; a thread that barged in leaves one
signalled thread more than needed. -/
theorem Covers.leave {w : WaitSet ι} {units : Nat} {t : ι} (covered : w.Covers units)
    (up : w t ≠ .asleep) : (w.leave t).Covers (units - 1) := by
  intro sleeper
  rw [sleepers_leave up] at sleeper
  have bound := covered sleeper
  rw [signalled_leave]
  have erased := Finset.pred_card_le_card_erase (s := w.signalled) (a := t)
  omega

theorem Covers.wakeup {w : WaitSet ι} {units : Nat} {t : ι} (covered : w.Covers units) :
    (w.wakeup t).Covers units := by
  intro sleeper
  have bound := covered (sleeper.mono (w.sleepers_wakeup_subset t))
  rw [signalled_wakeup]
  exact bound.trans (Finset.card_le_card (Finset.subset_insert _ _))

end WaitSet
end PCProject
