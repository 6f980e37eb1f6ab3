import PCProject.Lib.CString
import PCProject.Lib.ThreadSum
import PCProject.Lib.Transition

namespace PCProject

/-- Where a thread is in `increment_counter`: `counter++` is a read and a write of their own. -/
inductive CounterThread
  | notCreated
  | testing (i : Nat)
  | locking (i : Nat)
  | reading (i : Nat)
  | writing (i : Nat) (value : BitVec 32)
  | unlocking (i : Nat)
  | returned
  deriving DecidableEq

/-- Where `main` is once it has read its argument. -/
inductive CounterMain
  | creating (t : Fin 2)
  | joining (t : Fin 2)
  | printing
  | returned
  deriving DecidableEq

/-- The globals, the two threads and `main`. The mutex is known by the thread that has locked it,
`printed` is what follows "Final counter value: ". -/
structure CounterState where
  numIncrements : Int
  main : CounterMain
  threads : Fin 2 → CounterThread
  mutex : Option (Fin 2)
  counter : BitVec 32
  printed : Option Int

inductive CounterAction
  | main
  | thread (t : Fin 2)

/-- `main` up to pthread_mutex_init: the number of increments, or the line it prints on stderr
before it returns EXIT_FAILURE. The arguments are listed without their NUL. -/
def readIncrements : List Bytes → Except Bytes Int
  | [_, argument] => (atoi (argument ++ [0])).elim (.error []) .ok
  | argv => .error (ascii "Usage: " ++ argv.headD [] ++ ascii " <num_increments>\n")

/-- With one argument `main` starts the threads, and with an `int`. -/
theorem readIncrements_one (program argument : Bytes) :
    ∃ n, readIncrements [program, argument] = .ok n ∧ -2 ^ 31 ≤ n ∧ n < 2 ^ 31 := by
  obtain ⟨n, read⟩ := Option.isSome_iff_exists.mp ((atoi_isSome (argument ++ [0])).trans (endsNumber_string argument))
  exact ⟨n, by simp [readIncrements, read], atoi_bounds read⟩

/-- One step of a thread on the mutex and the counter. -/
def CounterThread.step (numIncrements : Int) (t : Fin 2) (mutex : Option (Fin 2)) (counter : BitVec 32) :
    CounterThread → Option (CounterThread × Option (Fin 2) × BitVec 32)
  | .notCreated => none
  | .testing i => some (if (i : Int) < numIncrements then .locking i else .returned, mutex, counter)
  | .locking i => if mutex = none then some (.reading i, some t, counter) else none
  | .reading i => some (.writing i counter, mutex, counter)
  | .writing i value => some (.unlocking i, mutex, value + 1)
  | .unlocking i => some (.testing (i + 1), none, counter)
  | .returned => none

def CounterState.start (numIncrements : Int) : CounterState where
  numIncrements := numIncrements
  main := .creating 0
  threads := fun _ => .notCreated
  mutex := none
  counter := 0
  printed := none

/-- `pthread_create` starts its thread at once, `pthread_join` waits until it has returned. -/
def counterStep (s : CounterState) : CounterAction → Option CounterState
  | .thread t => ((s.threads t).step s.numIncrements t s.mutex s.counter).map fun (thread, mutex, counter) =>
      { s with threads := Function.update s.threads t thread, mutex := mutex, counter := counter }
  | .main =>
    match s.main with
    | .creating t =>
      some { s with
        threads := Function.update s.threads t (.testing 0)
        main := if t = 0 then .creating 1 else .joining 0 }
    | .joining t =>
      if s.threads t = .returned then some { s with main := if t = 0 then .joining 1 else .printing } else none
    | .printing => some { s with printed := some s.counter.toInt, main := .returned }
    | .returned => none

def lockedCounter (numIncrements : Int) : System CounterState CounterAction where
  init s := s = .start numIncrements
  step := counterStep

/-- Between its lock and its unlock. -/
def CounterThread.inside : CounterThread → Bool
  | .reading _ | .writing .. | .unlocking _ => true
  | _ => false

/-- The increments that a thread has made. -/
def CounterThread.done (numIncrements : Int) : CounterThread → Nat
  | .notCreated => 0
  | .testing i | .locking i | .reading i | .writing i _ => i
  | .unlocking i => i + 1
  | .returned => numIncrements.toNat

/-- The range of the loop index. -/
def CounterThread.Within (numIncrements : Int) : CounterThread → Prop
  | .testing i => i ≤ numIncrements.toNat
  | .locking i | .reading i | .writing i _ | .unlocking i => i < numIncrements.toNat
  | .notCreated | .returned => True

/-- `main` has passed the creation of a thread. -/
def CounterMain.created : CounterMain → Fin 2 → Bool
  | .creating u, t => t < u
  | _, _ => true

/-- The join of a thread has returned. -/
def CounterMain.joined : CounterMain → Fin 2 → Bool
  | .creating _, _ => false
  | .joining u, t => t < u
  | _, _ => true

theorem CounterMain.created_next : ∀ t u : Fin 2,
    CounterMain.created (if t = 0 then .creating 1 else .joining 0) u = (u = t || CounterMain.created (.creating t) u) ∧
      CounterMain.joined (if t = 0 then .creating 1 else .joining 0) u = false := by
  decide

theorem CounterMain.joined_next : ∀ t u : Fin 2,
    CounterMain.joined (if t = 0 then .joining 1 else .printing) u = (u = t || CounterMain.joined (.joining t) u) ∧
      CounterMain.created (if t = 0 then .joining 1 else .printing) u = true := by
  decide

theorem CounterMain.next_ne_returned : ∀ t : Fin 2,
    (if t = 0 then CounterMain.creating 1 else .joining 0) ≠ .returned ∧
      (if t = 0 then CounterMain.joining 1 else .printing) ≠ .returned := by
  decide

section Steps
variable {n : Int} {t : Fin 2} {mutex mutex' : Option (Fin 2)} {counter counter' : BitVec 32}
  {thread thread' : CounterThread}

/-- What one step of a thread does, if it is inside exactly while it has the mutex and holds no stale value. -/
structure CounterThread.Moved (n : Int) (t : Fin 2) (mutex : Option (Fin 2)) (counter : BitVec 32)
    (thread thread' : CounterThread) (mutex' : Option (Fin 2)) (counter' : BitVec 32) : Prop where
  within : thread'.Within n
  owner : mutex' = some t ↔ thread'.inside = true
  others : ∀ u, u ≠ t → (mutex' = some u ↔ mutex = some u)
  held : ∀ i value, thread' = .writing i value → value = counter'
  counted : ∃ k, thread'.done n = thread.done n + k ∧ counter' = counter + BitVec.ofNat 32 k
  alone : counter' = counter ∨ thread.inside = true

theorem CounterThread.Moved.of_step (within : thread.Within n) (owner : mutex = some t ↔ thread.inside = true)
    (held : ∀ i value, thread = .writing i value → value = counter)
    (step : thread.step n t mutex counter = some (thread', mutex', counter')) :
    thread.Moved n t mutex counter thread' mutex' counter' := by
  cases thread with
  | notCreated => cases step
  | returned => cases step
  | testing i =>
    cases step
    have low : i ≤ n.toNat := within
    by_cases more : (i : Int) < n
    · rw [if_pos more]
      have index : i < n.toNat := by omega
      exact ⟨index, owner, fun _ _ => Iff.rfl, nofun, ⟨0, rfl, by simp⟩, .inl rfl⟩
    · rw [if_neg more]
      have last : n.toNat = i := by omega
      exact ⟨trivial, owner, fun _ _ => Iff.rfl, nofun, ⟨0, last, by simp⟩, .inl rfl⟩
  | locking i =>
    by_cases free : mutex = none
    · rw [CounterThread.step, if_pos free] at step
      cases step
      refine ⟨within, iff_of_true rfl rfl, fun u other => ?_, nofun, ⟨0, rfl, by simp⟩, .inl rfl⟩
      rw [free, Option.some.injEq]
      exact iff_of_false other.symm nofun
    · rw [CounterThread.step, if_neg free] at step
      cases step
  | reading i =>
    cases step
    refine ⟨within, owner, fun _ _ => Iff.rfl, fun i value same => ?_, ⟨0, rfl, by simp⟩, .inl rfl⟩
    cases same
    rfl
  | writing i value =>
    cases step
    have current := held i value rfl
    exact ⟨within, owner, fun _ _ => Iff.rfl, nofun, ⟨1, rfl, by rw [current]; rfl⟩, .inr rfl⟩
  | unlocking i =>
    cases step
    have index : i < n.toNat := within
    have mine : mutex = some t := owner.mpr rfl
    refine ⟨index, iff_of_false nofun nofun, fun u other => ?_, nofun, ⟨0, rfl, by simp⟩, .inl rfl⟩
    rw [mine, Option.some.injEq]
    exact iff_of_false nofun other.symm

/-- A thread that takes a step has been created and has not returned. -/
theorem CounterThread.step_alive (step : thread.step n t mutex counter = some (thread', mutex', counter')) :
    thread ≠ .notCreated ∧ thread ≠ .returned ∧ thread' ≠ .notCreated := by
  cases thread with
  | notCreated => cases step
  | returned => cases step
  | testing i =>
    cases step
    split <;> simp
  | locking i =>
    by_cases free : mutex = none
    · rw [CounterThread.step, if_pos free] at step
      cases step
      simp
    · rw [CounterThread.step, if_neg free] at step
      cases step
  | reading i | writing i value | unlocking i =>
    cases step
    simp

end Steps

/-- The invariant: the mutex belongs to the thread inside, which holds no stale value, and the counter
is the number of increments made. -/
structure CounterState.Sound (n : Int) (s : CounterState) : Prop where
  increments : s.numIncrements = n
  owner : ∀ t, s.mutex = some t ↔ (s.threads t).inside = true
  held : ∀ t i value, s.threads t = .writing i value → value = s.counter
  within : ∀ t, (s.threads t).Within n
  counted : s.counter = BitVec.ofNat 32 (∑ t, (s.threads t).done n)
  created : ∀ t, s.threads t = .notCreated ↔ s.main.created t = false
  joined : ∀ t, s.main.joined t = true → s.threads t = .returned

section Runs
variable {n : Int} {s s' : CounterState}

theorem CounterState.Sound.update (sound : s.Sound n) {t : Fin 2} {thread' : CounterThread}
    {mutex' : Option (Fin 2)} {counter' : BitVec 32} {main' : CounterMain}
    (moved : (s.threads t).Moved n t s.mutex s.counter thread' mutex' counter')
    (created : ∀ u, Function.update s.threads t thread' u = .notCreated ↔ main'.created u = false)
    (joined : ∀ u, main'.joined u = true → Function.update s.threads t thread' u = .returned) :
    CounterState.Sound n { s with
      threads := Function.update s.threads t thread', mutex := mutex', counter := counter', main := main' } := by
  obtain ⟨k, done, count⟩ := moved.counted
  refine ⟨sound.increments, fun u => ?_, fun u i value here => ?_, fun u => ?_, ?_, created, joined⟩
  · rcases eq_or_ne u t with rfl | other
    · simpa using moved.owner
    · simpa [Function.update_of_ne other] using (moved.others u other).trans (sound.owner u)
  · rcases eq_or_ne u t with rfl | other
    · exact moved.held i value (by simpa using here)
    · have old : s.threads u = .writing i value := by simpa [Function.update_of_ne other] using here
      have mine := (sound.owner u).mpr (by rw [old]; rfl)
      rcases moved.alone with keeps | inside
      · exact (sound.held u i value old).trans keeps.symm
      · rw [(sound.owner t).mpr inside, Option.some.injEq] at mine
        exact absurd mine.symm other
  · rcases eq_or_ne u t with rfl | other
    · simpa using moved.within
    · simpa [Function.update_of_ne other] using sound.within u
  · have balance := sum_update_add (CounterThread.done n) s.threads t thread'
    rw [done] at balance
    have total : ∑ u, (Function.update s.threads t thread' u).done n = (∑ u, (s.threads u).done n) + k := by omega
    rw [total, BitVec.ofNat_add, ← sound.counted]
    exact count

theorem CounterState.Sound.thread (sound : s.Sound n) {t : Fin 2} (step : counterStep s (.thread t) = some s') :
    s'.Sound n := by
  obtain ⟨⟨thread, mutex, counter⟩, taken, rfl⟩ := Option.map_eq_some_iff.mp step
  rw [sound.increments] at taken
  obtain ⟨started, running, present⟩ := CounterThread.step_alive taken
  refine sound.update (.of_step (sound.within t) (sound.owner t) (sound.held t) taken) (fun u => ?_) fun u passed => ?_
  · rcases eq_or_ne u t with rfl | other
    · have created := mt (sound.created u).mpr started
      rw [Function.update_self]
      exact iff_of_false present created
    · rw [Function.update_of_ne other]
      exact sound.created u
  · have back := sound.joined u passed
    rcases eq_or_ne u t with rfl | other
    · exact absurd back running
    · rw [Function.update_of_ne other]
      exact back

theorem CounterState.Sound.start (n : Int) : (CounterState.start n).Sound n where
  increments := rfl
  owner _ := iff_of_false nofun nofun
  held := nofun
  within _ := trivial
  counted := by simp [CounterState.start, CounterThread.done]
  created t := iff_of_true rfl (by simp [CounterState.start, CounterMain.created])
  joined := nofun

/-- The creation of a thread moves it to its first test. -/
theorem CounterState.Sound.created_moved (sound : s.Sound n) {t : Fin 2} (fresh : s.threads t = .notCreated) :
    (s.threads t).Moved n t s.mutex s.counter (.testing 0) s.mutex s.counter := by
  have owner := sound.owner t
  rw [fresh] at owner ⊢
  exact ⟨Nat.zero_le _, owner, fun _ _ => Iff.rfl, nofun, ⟨0, rfl, by simp⟩, .inl rfl⟩

theorem CounterState.Sound.create (sound : s.Sound n) {t : Fin 2} (here : s.main = .creating t)
    (step : counterStep s .main = some s') : s'.Sound n := by
  unfold counterStep at step
  simp only [here] at step
  cases step
  have fresh : s.threads t = .notCreated := (sound.created t).mpr (by simp [here, CounterMain.created])
  refine sound.update (sound.created_moved fresh) (fun u => ?_) fun u passed => ?_
  · rw [(CounterMain.created_next t u).1]
    rcases eq_or_ne u t with rfl | other
    · simp
    · simpa [Function.update_of_ne other, other, here] using sound.created u
  · rw [(CounterMain.created_next t u).2] at passed
    cases passed

theorem CounterState.Sound.join (sound : s.Sound n) {t : Fin 2} (here : s.main = .joining t)
    (step : counterStep s .main = some s') : s'.Sound n := by
  unfold counterStep at step
  simp only [here] at step
  by_cases back : s.threads t = .returned
  · rw [if_pos back] at step
    cases step
    refine ⟨sound.increments, sound.owner, sound.held, sound.within, sound.counted, fun u => ?_, fun u passed => ?_⟩
    · have old := sound.created u
      rw [here] at old
      exact old.trans (by rw [(CounterMain.joined_next t u).2]; rfl)
    · rw [(CounterMain.joined_next t u).1] at passed
      rcases eq_or_ne u t with rfl | other
      · exact back
      · exact sound.joined u (by simpa [here, other] using passed)
  · rw [if_neg back] at step
    cases step

theorem CounterState.Sound.print (sound : s.Sound n) (here : s.main = .printing)
    (step : counterStep s .main = some s') : s'.Sound n := by
  unfold counterStep at step
  simp only [here] at step
  cases step
  refine ⟨sound.increments, sound.owner, sound.held, sound.within, sound.counted, fun u => ?_, fun u _ => ?_⟩
  · simpa [here, CounterMain.created] using sound.created u
  · exact sound.joined u (by rw [here]; rfl)

theorem CounterState.Sound.step (sound : s.Sound n) {action : CounterAction}
    (step : counterStep s action = some s') : s'.Sound n := by
  cases action with
  | thread t => exact sound.thread step
  | main =>
    cases here : s.main with
    | creating t => exact sound.create here step
    | joining t => exact sound.join here step
    | printing => exact sound.print here step
    | returned =>
      unfold counterStep at step
      simp only [here] at step
      cases step

theorem lockedCounter_sound (reach : (lockedCounter n).Reach s) : s.Sound n :=
  reach.invariant (fun _ initial => initial ▸ .start n) fun _ _ _ _ sound step => sound.step step

/-- Both joins have returned. -/
def CounterState.Joined (s : CounterState) : Prop := ∀ t, s.main.joined t = true

theorem CounterState.Sound.total (sound : s.Sound n) (joined : s.Joined) :
    s.counter = BitVec.ofInt 32 (2 * max n 0) := by
  have all (t : Fin 2) : (s.threads t).done n = n.toNat := by rw [sound.joined t (joined t)]; rfl
  have total : ∑ t, (s.threads t).done n = 2 * n.toNat := by simp [all]
  have both : 2 * max n 0 = ((2 * n.toNat : Nat) : Int) := by omega
  rw [sound.counted, total, both, BitVec.ofInt_natCast]

theorem locked_counter (reach : (lockedCounter n).Reach s) :
    (∀ t u, (s.threads t).inside = true → (s.threads u).inside = true → t = u) ∧
      (s.Joined → s.counter = BitVec.ofInt 32 (2 * max n 0)) := by
  have sound := lockedCounter_sound reach
  refine ⟨fun t u insideT insideU => ?_, sound.total⟩
  have mine := (sound.owner t).mpr insideT
  rw [(sound.owner u).mpr insideU, Option.some.injEq] at mine
  exact mine.symm

def oneEach : List CounterAction :=
  [.main, .main, .thread 0, .thread 0, .thread 1, .thread 0, .thread 0, .thread 0, .thread 1, .thread 1, .thread 1,
    .thread 0, .thread 1, .thread 1, .main, .main]

theorem locked_counter_one_each : ∃ s, (lockedCounter 1).exec (.start 1) oneEach = some s ∧ s.Joined ∧
    s.counter = BitVec.ofInt 32 (2 * max 1 0) := by
  obtain ⟨s, run, joined⟩ : ∃ s, (lockedCounter 1).exec (.start 1) oneEach = some s ∧ s.Joined :=
    ⟨_, rfl, fun _ => rfl⟩
  exact ⟨s, run, joined, (locked_counter (.exec (.start rfl) run)).2 joined⟩

/-- `i++` stays within the range of an int. -/
theorem lockedCounter_index (reach : (lockedCounter n).Reach s) {t : Fin 2} {i : Nat}
    (here : s.threads t = .unlocking i) : (i : Int) + 1 ≤ n := by
  have within := (lockedCounter_sound reach).within t
  rw [here] at within
  have index : i < n.toNat := within
  omega

/-- Once `main` has returned, no thread takes a step. -/
theorem CounterState.Sound.printed_step (sound : s.Sound n) {action : CounterAction}
    (step : counterStep s action = some s') (end_ : s'.main = .returned) : s'.printed = some s'.counter.toInt := by
  cases action with
  | thread t =>
    obtain ⟨⟨thread, mutex, counter⟩, taken, rfl⟩ := Option.map_eq_some_iff.mp step
    have back := sound.joined t (by rw [show s.main = .returned from end_]; rfl)
    exact absurd back (CounterThread.step_alive taken).2.1
  | main =>
    unfold counterStep at step
    cases here : s.main with
    | creating t =>
      simp only [here] at step
      cases step
      exact absurd end_ (CounterMain.next_ne_returned t).1
    | joining t =>
      simp only [here] at step
      by_cases back : s.threads t = .returned
      · rw [if_pos back] at step
        cases step
        exact absurd end_ (CounterMain.next_ne_returned t).2
      · rw [if_neg back] at step
        cases step
    | printing =>
      simp only [here] at step
      cases step
      rfl
    | returned =>
      simp only [here] at step
      cases step

/-- What `main` prints at its end. -/
theorem lockedCounter_printed (reach : (lockedCounter n).Reach s) (end_ : s.main = .returned) :
    s.printed = some ((2 * max n 0).bmod (2 ^ 32)) := by
  have printed : s.main = .returned → s.printed = some s.counter.toInt := by
    refine reach.invariant (I := fun s => s.main = .returned → s.printed = some s.counter.toInt)
      (fun _ initial => ?_) fun s action s' before _ step => ?_
    · subst initial
      exact nofun
    · exact (lockedCounter_sound before).printed_step step
  rw [printed end_, (lockedCounter_sound reach).total fun t => by rw [end_]; rfl, BitVec.toInt_ofInt]

/-- The steps that a thread has left. -/
def CounterThread.stepsLeft (numIncrements : Int) : CounterThread → Nat
  | .notCreated => 5 * numIncrements.toNat + 1
  | .testing i => 5 * (numIncrements.toNat - i) + 1
  | .locking i => 5 * (numIncrements.toNat - i)
  | .reading i => 5 * (numIncrements.toNat - i) - 1
  | .writing i _ => 5 * (numIncrements.toNat - i) - 2
  | .unlocking i => 5 * (numIncrements.toNat - i) - 3
  | .returned => 0

def CounterMain.stepsLeft : CounterMain → Nat
  | .creating t => 5 - t
  | .joining t => 3 - t
  | .printing => 1
  | .returned => 0

theorem CounterMain.stepsLeft_next : ∀ t : Fin 2,
    CounterMain.stepsLeft (if t = 0 then .creating 1 else .joining 0) + 1 = CounterMain.stepsLeft (.creating t) ∧
      CounterMain.stepsLeft (if t = 0 then .joining 1 else .printing) + 1 = CounterMain.stepsLeft (.joining t) := by
  decide

def CounterState.stepsLeft (s : CounterState) : Nat :=
  s.main.stepsLeft + ∑ t, (s.threads t).stepsLeft s.numIncrements

theorem CounterThread.stepsLeft_step {t : Fin 2} {mutex mutex' : Option (Fin 2)} {counter counter' : BitVec 32}
    {thread thread' : CounterThread} (within : thread.Within n)
    (step : thread.step n t mutex counter = some (thread', mutex', counter')) :
    thread'.stepsLeft n + 1 ≤ thread.stepsLeft n := by
  cases thread with
  | notCreated => cases step
  | returned => cases step
  | testing i =>
    cases step
    split
    · simp only [CounterThread.stepsLeft]
      omega
    · simp only [CounterThread.stepsLeft]
      omega
  | locking i =>
    have index : i < n.toNat := within
    by_cases free : mutex = none
    · rw [CounterThread.step, if_pos free] at step
      cases step
      simp only [CounterThread.stepsLeft]
      omega
    · rw [CounterThread.step, if_neg free] at step
      cases step
  | reading i | writing i value | unlocking i =>
    have index : i < n.toNat := within
    cases step
    simp only [CounterThread.stepsLeft]
    omega

theorem CounterState.Sound.stepsLeft (sound : s.Sound n) {action : CounterAction}
    (step : counterStep s action = some s') : s'.stepsLeft + 1 ≤ s.stepsLeft := by
  cases action with
  | thread t =>
    obtain ⟨⟨thread, mutex, counter⟩, taken, rfl⟩ := Option.map_eq_some_iff.mp step
    have fewer := CounterThread.stepsLeft_step (sound.increments ▸ sound.within t) taken
    have balance := sum_update_add (CounterThread.stepsLeft s.numIncrements) s.threads t thread
    simp only [CounterState.stepsLeft]
    omega
  | main =>
    unfold counterStep at step
    cases here : s.main with
    | creating t =>
      simp only [here] at step
      cases step
      have fresh : s.threads t = .notCreated := (sound.created t).mpr (by simp [here, CounterMain.created])
      have same : CounterThread.stepsLeft s.numIncrements (.testing 0) = (s.threads t).stepsLeft s.numIncrements := by
        rw [fresh]
        rfl
      have next := (CounterMain.stepsLeft_next t).1
      simp only [CounterState.stepsLeft, here, sum_update_same (CounterThread.stepsLeft s.numIncrements) s.threads same]
      omega
    | joining t =>
      simp only [here] at step
      by_cases back : s.threads t = .returned
      · rw [if_pos back] at step
        cases step
        have next := (CounterMain.stepsLeft_next t).2
        simp only [CounterState.stepsLeft, here]
        omega
      · rw [if_neg back] at step
        cases step
    | printing =>
      simp only [here] at step
      cases step
      simp only [CounterState.stepsLeft, here, CounterMain.stepsLeft]
      omega
    | returned =>
      simp only [here] at step
      cases step

/-- A thread that waits for the mutex waits for a thread that can go on. -/
theorem CounterState.Sound.thread_goes_on (sound : s.Sound n) {t : Fin 2} (started : s.threads t ≠ .notCreated)
    (running : s.threads t ≠ .returned) : ∃ u s', counterStep s (.thread u) = some s' := by
  by_cases waits : s.mutex = none ∨ ∀ i, s.threads t ≠ .locking i
  · refine ⟨t, ?_⟩
    cases here : s.threads t with
    | notCreated => exact absurd here started
    | returned => exact absurd here running
    | locking i =>
      have free := waits.resolve_right fun never => never i here
      exact ⟨_, by rw [counterStep, here, CounterThread.step, if_pos free]; rfl⟩
    | testing i | reading i | writing i value | unlocking i => exact ⟨_, by rw [counterStep, here]; rfl⟩
  · obtain ⟨u, taken⟩ := Option.ne_none_iff_exists'.mp (not_or.mp waits).1
    have inside := (sound.owner u).mp taken
    refine ⟨u, ?_⟩
    cases here : s.threads u with
    | notCreated | returned | testing i | locking i =>
      rw [here] at inside
      cases inside
    | reading i | writing i value | unlocking i => exact ⟨_, by rw [counterStep, here]; rfl⟩

/-- While `main` has not returned, some thread can take a step. -/
theorem CounterState.Sound.goes_on (sound : s.Sound n) (running : s.main ≠ .returned) :
    ∃ action s', counterStep s action = some s' := by
  cases here : s.main with
  | creating t => exact ⟨.main, _, by simp only [counterStep, here]; rfl⟩
  | printing => exact ⟨.main, _, by simp only [counterStep, here]; rfl⟩
  | returned => exact absurd here running
  | joining t =>
    by_cases back : s.threads t = .returned
    · exact ⟨.main, _, by simp only [counterStep, here, if_pos back]; rfl⟩
    · have started : s.threads t ≠ .notCreated := by
        rw [Ne, sound.created t, here]
        simp [CounterMain.created]
      obtain ⟨u, s', step⟩ := sound.thread_goes_on started back
      exact ⟨.thread u, s', step⟩

/-- From every reachable state the program reaches its end, whatever has happened before. -/
theorem lockedCounter_returns (reach : (lockedCounter n).Reach s) :
    ∃ schedule s', (lockedCounter n).exec s schedule = some s' ∧ s'.main = .returned := by
  obtain ⟨schedule, s', run, stuck⟩ := reach.ends CounterState.stepsLeft fun s action s' before step =>
    (lockedCounter_sound before).stepsLeft step
  refine ⟨schedule, s', run, ?_⟩
  by_contra running
  obtain ⟨action, next, step⟩ := (lockedCounter_sound (reach.exec run)).goes_on running
  exact Option.some_ne_none _ (step.symm.trans (stuck action))

end Runs
end PCProject
