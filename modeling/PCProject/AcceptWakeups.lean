import PCProject.ChatMoves

namespace PCProject
variable {maxConcurrentClients : Int} {s s' : ChatState} {action : ChatAction}

/-- The step is not a `notify_all` between a failed test of the predicate and the moment main
goes to sleep, with the predicate true by then. -/
def timelyNotify (maxConcurrentClients : Int) (s : ChatState) : ChatAction → Bool
  | .handler i _ =>
    !(s.main = .falling && s.canAccept maxConcurrentClients && s.connections[i]?.any fun c => c.closing)
  | .interruptNotify => !(s.main = .falling && s.canAccept maxConcurrentClients)
  | _ => true

/-- While main is asleep, or about to be, the predicate is false or somebody is about to notify. -/
def WaitCovered (maxConcurrentClients : Int) (s : ChatState) : Prop :=
  s.main = .falling ∨ s.main = .asleep → s.canAccept maxConcurrentClients = false ∨ s.Notifying

/-- Main goes to sleep only after a failed test, and changes nothing on its way. -/
theorem mainStep_waits {accepted : Bool} (step : mainStep maxConcurrentClients s accepted = some s') :
    (s'.main = .falling → s.canAccept maxConcurrentClients = false ∧ s' = { s with main := .falling }) ∧
    (s'.main = .asleep → s.main = .falling ∧ s' = { s with main := .asleep }) := by
  unfold mainStep at step
  cases atMain : s.main with
  | loop =>
    simp only [atMain] at step
    cases step
    constructor <;> (dsimp only; split <;> nofun)
  | testing =>
    simp only [atMain] at step
    cases step
    cases can : s.canAccept maxConcurrentClients with
    | false => exact ⟨fun _ => ⟨rfl, rfl⟩, nofun⟩
    | true => exact ⟨nofun, nofun⟩
  | falling =>
    simp only [atMain] at step
    cases step
    exact ⟨nofun, fun _ => ⟨rfl, rfl⟩⟩
  | asleep => simp only [atMain] at step; cases step
  | ready =>
    simp only [atMain] at step
    cases step
    constructor <;> (dsimp only; split <;> nofun)
  | accepting =>
    simp only [atMain] at step
    split at step
    · cases step; exact ⟨nofun, nofun⟩
    · cases step; exact ⟨nofun, nofun⟩
  | counted i =>
    simp only [atMain] at step
    cases step
    constructor <;> (dsimp only; split <;> nofun)
  | spawning i =>
    simp only [atMain] at step
    obtain ⟨c, -, step⟩ := Option.bind_eq_some_iff.mp step
    cases step
    exact ⟨nofun, nofun⟩
  | closing i visited =>
    simp only [atMain] at step
    obtain ⟨c, -, step⟩ := Option.bind_eq_some_iff.mp step
    cases step
    exact ⟨nofun, nofun⟩
  | notifying visited => simp only [atMain] at step; cases step; exact ⟨nofun, nofun⟩
  | stopping visited =>
    simp only [atMain] at step
    split at step
    · cases step; exact ⟨nofun, nofun⟩
    · cases step; exact ⟨nofun, nofun⟩
  | exited => simp only [atMain] at step; cases step

theorem WaitCovered.main {accepted : Bool} (covered : WaitCovered maxConcurrentClients s)
    (step : mainStep maxConcurrentClients s accepted = some s') : WaitCovered maxConcurrentClients s' := by
  obtain ⟨falling, asleep⟩ := mainStep_waits step
  rintro (here | here)
  · obtain ⟨cannot, rfl⟩ := falling here
    exact Or.inl cannot
  · obtain ⟨before, rfl⟩ := asleep here
    exact covered (Or.inl before)

theorem WaitCovered.handler {i : Nat} {r : Received} {c : Connection} (covered : WaitCovered maxConcurrentClients s)
    (timely : timelyNotify maxConcurrentClients s (.handler i r) = true) (found : s.connections[i]? = some c)
    (move : HandlerMove s i r c s') : WaitCovered maxConcurrentClients s' := by
  have inside : i < s.connections.length := (List.getElem?_eq_some_iff.mp found).1
  cases move with
  | notify closing next =>
    rintro (falling | asleep)
    · have here : s.main = .falling := MainPc.notifyAll_eq falling nofun
      cases can : s.canAccept maxConcurrentClients with
      | false => exact Or.inl can
      | true => simp [timelyNotify, here, can, found, closing] at timely
    · exact absurd asleep MainPc.notifyAll_asleep
  | close idle place =>
    intro _
    exact Or.inr (Or.inr ⟨i, { c with closing := true, closes := c.closes + 1 }, by simp [inside], rfl⟩)
  | call idle known done next =>
    intro waits
    rcases covered waits with cannot | interrupted | ⟨j, d, other, closing⟩
    · exact Or.inl cannot
    · exact Or.inr (Or.inl interrupted)
    · refine Or.inr (Or.inr ⟨j, d, ?_, closing⟩)
      have apart : i ≠ j := by
        intro same
        subst same
        rw [found] at other
        cases other
        rw [idle] at closing
        cases closing
      simpa [List.getElem?_set, apart] using other

theorem WaitCovered.step (covered : WaitCovered maxConcurrentClients s)
    (timely : timelyNotify maxConcurrentClients s action = true)
    (step : chatStep maxConcurrentClients s action = some s') : WaitCovered maxConcurrentClients s' := by
  cases action with
  | main accepted => exact covered.main step
  | wakeup =>
    simp only [chatStep] at step
    split at step
    · cases step; exact fun waits => by rcases waits with here | here <;> cases here
    · cases step
  | handler i r =>
    obtain ⟨c, found, -, move⟩ := handlerStep_move step
    exact covered.handler timely found move
  | interrupt =>
    simp only [chatStep] at step
    split at step
    · cases step
    · cases step; exact fun _ => Or.inr (Or.inl rfl)
  | interruptNotify =>
    simp only [chatStep] at step
    split at step
    · cases step
      rintro (falling | asleep)
      · have here : s.main = .falling := MainPc.notifyAll_eq falling nofun
        have cannot : s.canAccept maxConcurrentClients = false := by simpa [timelyNotify, here] using timely
        exact Or.inl cannot
      · exact absurd asleep MainPc.notifyAll_asleep
    · cases step

/-- In a run whose notifications are timely, main never sleeps while it could go on, unless the
notification is still to come. -/
theorem accept_wakeups_of_timely_notify
    (via : (chatSystem maxConcurrentClients).ReachVia (timelyNotify maxConcurrentClients) s) :
    ¬(s.main = .asleep ∧ ¬s.Notifying ∧ (s.running = false ∨ s.liveUsers < maxConcurrentClients)) := by
  have covered : WaitCovered maxConcurrentClients s := by
    refine via.invariant ?_ fun before action after covered timely step => covered.step timely step
    rintro _ rfl (here | here) <;> cases here
  rintro ⟨asleep, quiet, ready⟩
  have cannot := (covered (Or.inr asleep)).resolve_right quiet
  simp only [ChatState.canAccept, Bool.or_eq_false_iff, Bool.not_eq_false', decide_eq_false_iff_not] at cannot
  rcases ready with stopped | below
  · rw [cannot.1] at stopped
    cases stopped
  · exact cannot.2 below

/-- Main accepts a client, finds no room for another one and goes to sleep. -/
def acceptOne : List ChatAction := List.replicate 8 (.main true)

theorem accept_wakeups_of_timely_notify_full :
    ∃ s, (chatSystem 1).exec .start (acceptOne ++ [.main true]) = some s ∧ s.main = .asleep ∧
      ¬(s.main = .asleep ∧ ¬s.Notifying ∧ (s.running = false ∨ s.liveUsers < 1)) := by
  have run : (chatSystem 1).execVia (timelyNotify 1) .start (acceptOne ++ [.main true]) = some _ := rfl
  exact ⟨_, rfl, rfl, accept_wakeups_of_timely_notify (System.ReachVia.exec (.start rfl) run)⟩

/-- The handler of that client notifies after main has tested the predicate and before main
is asleep. -/
theorem accept_loop_loses_a_wakeup :
    ∃ s, (chatSystem 1).Reach s ∧ s.main = .asleep ∧ ¬s.Notifying ∧ (s.running = false ∨ s.liveUsers < 1) := by
  have run : (chatSystem 1).exec .start
      (acceptOne ++ List.replicate 4 (.handler 0 (.text [])) ++ [.main true]) = some _ := rfl
  exact ⟨_, System.Reach.exec (.start rfl) run, rfl, ChatState.not_notifying rfl (by decide), Or.inr (by decide)⟩

end PCProject
