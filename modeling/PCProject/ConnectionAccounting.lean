import PCProject.ChatMoves
import PCProject.Lib.ListCount

namespace PCProject
variable {maxConcurrentClients : Int} {s s' : ChatState} {action : ChatAction} {c : Connection}

/-- The step does not refuse a name that is in use, and the loop of main over the remaining
users finds none: the two branches that leave a connection to a second `close_`. -/
def singleOwner (s : ChatState) : ChatAction → Bool
  | .handler i _ =>
    !(s.connections[i]?.any fun c => c.pc = .register && s.users.any fun user => user.1 = c.client.name)
  | .main _ =>
    match s.main with
    | .stopping visited => (nextUser visited s.users).isNone
    | _ => true
  | _ => true

/-- The places of a handler whose connection has still to be closed by it. -/
def HandlerPc.isOpen : HandlerPc → Bool
  | .notStarted | .delete | .returned => false
  | _ => true

/-- `close_` has been called once the handler is past it, and not before. -/
structure Connection.Accounted (c : Connection) : Prop where
  once : c.closes ≤ 1
  unclosed : c.pc.isOpen = true → c.closing = false → c.closes = 0
  closing : c.closing = true → c.pc = .close .unnamed ∨ c.pc = .close .leaving
  kept : c.pc ≠ .close .refused

/-- What main knows about the connection that it holds, and about the room for the next one. -/
def MainOwned (maxConcurrentClients : Int) (s : ChatState) : Prop :=
  match s.main with
  | .ready => s.running = false ∨ s.liveUsers < maxConcurrentClients
  | .accepting => s.liveUsers < maxConcurrentClients
  | .counted i | .spawning i | .closing i none =>
    ∃ c, s.connections[i]? = some c ∧ c.pc = .notStarted ∧ c.closing = false ∧ c.closes = 0
  | .closing _ (some _) => False
  | _ => True

/-- The connections whose `close_` has not run. -/
def ChatState.openConnections (s : ChatState) : Nat := s.connections.countP fun c => c.closes = 0

structure ConnectionInv (maxConcurrentClients : Int) (s : ChatState) : Prop where
  accounted : ∀ c ∈ s.connections, c.Accounted
  owned : MainOwned maxConcurrentClients s
  live : s.liveUsers = s.openConnections
  bound : s.liveUsers ≤ maxConcurrentClients

/-- A step that leaves `closes` of a connection alone leaves as many connections open. -/
theorem ChatState.live_same {i : Nat} {c' : Connection} (live : s.liveUsers = s.openConnections)
    (found : s.connections[i]? = some c) (set : s'.connections = s.connections.set i c')
    (users : s'.liveUsers = s.liveUsers) (same : c'.closes = c.closes) : s'.liveUsers = s'.openConnections := by
  have counted := countP_set_add (p := fun c => decide (c.closes = 0)) c' found
  rw [same] at counted
  unfold openConnections at live ⊢
  rw [set, users]
  omega

/-- The first `close_` of a connection leaves one less. -/
theorem ChatState.live_close {i : Nat} {c' : Connection} (live : s.liveUsers = s.openConnections)
    (found : s.connections[i]? = some c) (set : s'.connections = s.connections.set i c')
    (users : s'.liveUsers = s.liveUsers - 1) (unclosed : c.closes = 0) (closed : c'.closes = c.closes + 1) :
    s'.liveUsers = s'.openConnections := by
  have counted := countP_set_add (p := fun c => decide (c.closes = 0)) c' found
  simp only [unclosed, closed, decide_true, if_true, Nat.zero_add, Nat.one_ne_zero, decide_false, Bool.false_eq_true,
    if_false] at counted
  unfold openConnections at live ⊢
  rw [set, users]
  omega

/-- The handlers keep their hands off the connection that main holds. -/
theorem MainOwned.set {c' : Connection} {i : Nat} (owned : MainOwned maxConcurrentClients s)
    (found : s.connections[i]? = some c) (started : c.pc = .notStarted → c.closing = true)
    (main : s'.main = s.main ∨ s'.main = .testing) (connections : s'.connections = s.connections.set i c')
    (running : s'.running = s.running) (live : s'.liveUsers ≤ s.liveUsers) : MainOwned maxConcurrentClients s' := by
  have held {j : Nat}
      (holds : ∃ d, s.connections[j]? = some d ∧ d.pc = .notStarted ∧ d.closing = false ∧ d.closes = 0) :
      ∃ d, s'.connections[j]? = some d ∧ d.pc = .notStarted ∧ d.closing = false ∧ d.closes = 0 := by
    obtain ⟨d, at_, waiting, idle, closes⟩ := holds
    have apart : i ≠ j := by
      intro same
      subst same
      rw [found] at at_
      cases at_
      rw [started waiting] at idle
      cases idle
    exact ⟨d, by simpa [connections, apart] using at_, waiting, idle, closes⟩
  unfold MainOwned at owned ⊢
  rcases main with main | main
  · rw [main]
    split at owned
    · rw [running]
      exact owned.imp_right fun below => Int.lt_of_le_of_lt live below
    · exact Int.lt_of_le_of_lt live owned
    · exact held owned
    · exact held owned
    · exact held owned
    · exact owned
    · trivial
  · rw [main]
    trivial

theorem MainPc.notifyAll_cases (pc : MainPc) : pc.notifyAll = pc ∨ pc.notifyAll = .testing := by
  unfold notifyAll
  split
  · exact Or.inr rfl
  · exact Or.inl rfl

/-- Only a refused registration leads to the `close_` that falls through. -/
theorem HandlerPc.resume_refused {pc : HandlerPc} {reply : Reply} (next : pc.resume reply = some (.close .refused)) :
    pc = .register ∧ reply = .answer false := by
  unfold resume at next
  split at next
  · cases next
  · split at next
    · cases next
    · split at next <;> cases next
  · cases next
  · split at next
    · cases next
    · rename_i refused
      exact ⟨rfl, by simpa using refused⟩
  · cases next
  · split at next <;> cases next
  · repeat' split at next
    all_goals cases next
  all_goals cases next

/-- A call other than `close_` leads to a place where the connection is still open. -/
theorem HandlerPc.isOpen_of_resume {pc pc' : HandlerPc} {name : Bytes} {call : ChatCall} {reply : Reply}
    (known : pc.call name = some call) (next : pc.resume reply = some pc') (stays : pc'.isOpen = true) :
    pc.isOpen = true := by
  cases pc with
  | notStarted => cases known
  | returned => cases known
  | delete =>
    cases reply with
    | done => cases next; cases stays
    | _ => cases next
  | _ => rfl

theorem ConnectionInv.handler {i : Nat} {r : Received} (inv : ConnectionInv maxConcurrentClients s)
    (single : singleOwner s (.handler i r) = true) (found : s.connections[i]? = some c)
    (move : HandlerMove s i r c s') : ConnectionInv maxConcurrentClients s' := by
  have mine := inv.accounted c (List.mem_of_getElem? found)
  have live := inv.live
  have bound := inv.bound
  cases move with
  | @notify pc closing next =>
    have ended : pc ≠ .close .refused ∧ pc.isOpen = false := by
      rcases mine.closing closing with place | place
      · rw [place] at next
        cases next
        exact ⟨nofun, rfl⟩
      · rw [place] at next
        cases next
        exact ⟨nofun, rfl⟩
    refine ⟨forall_mem_set inv.accounted ⟨mine.once, ?_, nofun, ended.1⟩,
      inv.owned.set found (fun _ => closing) (MainPc.notifyAll_cases _) rfl rfl (Int.le_refl _), ?_, bound⟩
    · intro stays
      rw [ended.2] at stays
      cases stays
    · exact ChatState.live_same live found rfl rfl rfl
  | @close site idle place =>
    have unclosed : c.closes = 0 := mine.unclosed (by rw [place]; rfl) idle
    have open_ : c.pc = .close .unnamed ∨ c.pc = .close .leaving := by
      cases site with
      | unnamed => exact Or.inl place
      | leaving => exact Or.inr place
      | refused => exact absurd place mine.kept
    refine ⟨forall_mem_set inv.accounted ⟨by simp [unclosed], nofun, fun _ => open_, mine.kept⟩,
      inv.owned.set found (fun waiting => by rw [place] at waiting; cases waiting) (Or.inl rfl) rfl rfl
        (by dsimp only; omega), ?_, by dsimp only; omega⟩
    exact ChatState.live_close live found rfl rfl unclosed rfl
  | @call call reply client users sent pc idle known done next =>
    have other : pc ≠ .close .refused := by
      intro refused
      rw [refused] at next
      obtain ⟨place, rfl⟩ := HandlerPc.resume_refused next
      rw [place] at known
      cases known
      simp only [ChatState.perform] at done
      split at done
      · rename_i taken
        simp [singleOwner, found, place, taken] at single
      · cases done
    have started : c.pc ≠ .notStarted := by
      intro waiting
      rw [waiting] at known
      cases known
    refine ⟨forall_mem_set inv.accounted ⟨mine.once, ?_, ?_, other⟩,
      inv.owned.set found (fun waiting => absurd waiting started) (Or.inl rfl) rfl rfl (Int.le_refl _), ?_, bound⟩
    · intro stays _
      exact mine.unclosed (HandlerPc.isOpen_of_resume known next stays) idle
    · intro closing
      rw [idle] at closing
      cases closing
    · exact ChatState.live_same live found rfl rfl rfl

theorem ConnectionInv.main {accepted : Bool} (inv : ConnectionInv maxConcurrentClients s)
    (single : singleOwner s (.main accepted) = true) (step : mainStep maxConcurrentClients s accepted = some s') :
    ConnectionInv maxConcurrentClients s' := by
  have ⟨accounted, owned, live, bound⟩ := inv
  unfold mainStep at step
  unfold MainOwned at owned
  cases atMain : s.main with
  | loop =>
    simp only [atMain] at step
    cases step
    refine ⟨accounted, ?_, live, bound⟩
    unfold MainOwned
    cases s.running <;> trivial
  | testing =>
    simp only [atMain] at step
    cases step
    refine ⟨accounted, ?_, live, bound⟩
    unfold MainOwned
    cases can : s.canAccept maxConcurrentClients with
    | false => trivial
    | true => simpa [ChatState.canAccept] using can
  | falling => simp only [atMain] at step; cases step; exact ⟨accounted, trivial, live, bound⟩
  | asleep => simp only [atMain] at step; cases step
  | ready =>
    simp only [atMain] at step owned
    cases step
    refine ⟨accounted, ?_, live, bound⟩
    unfold MainOwned
    cases running : s.running with
    | false => trivial
    | true => exact owned.resolve_left (by simp [running])
  | accepting =>
    simp only [atMain] at step owned
    split at step
    · cases step
      refine ⟨?_, ⟨{}, by simp, rfl, rfl, rfl⟩, ?_, by dsimp only; omega⟩
      · intro c member
        rcases List.mem_append.mp member with old | new
        · exact accounted c old
        · rw [List.mem_singleton.mp new]
          exact ⟨Nat.zero_le _, nofun, nofun, nofun⟩
      · simp only [ChatState.openConnections, List.countP_append, List.countP_singleton] at live ⊢
        rw [live]
        rfl
    · cases step; exact ⟨accounted, trivial, live, bound⟩
  | counted i =>
    simp only [atMain] at step owned
    cases step
    refine ⟨accounted, ?_, live, bound⟩
    unfold MainOwned
    cases s.running <;> exact owned
  | spawning i =>
    simp only [atMain] at step owned
    obtain ⟨c, found, waiting, idle, closes⟩ := owned
    rw [found] at step
    cases step
    refine ⟨forall_mem_set accounted ⟨by simp [closes], fun _ _ => closes, ?_, nofun⟩, trivial, ?_, bound⟩
    · intro closing
      rw [idle] at closing
      cases closing
    · exact ChatState.live_same live found rfl rfl rfl
  | closing i visited =>
    cases visited with
    | some name => simp only [atMain] at owned
    | none =>
      simp only [atMain] at step owned
      obtain ⟨c, found, waiting, idle, closes⟩ := owned
      rw [found] at step
      cases step
      refine ⟨forall_mem_set accounted ⟨by simp [closes], ?_, ?_, ?_⟩, trivial, ?_, by dsimp only; omega⟩
      · intro stays
        simp only [waiting] at stays
        cases stays
      · intro closing
        rw [idle] at closing
        cases closing
      · simp [waiting]
      · exact ChatState.live_close live found rfl rfl closes rfl
  | notifying visited => simp only [atMain] at step; cases step; exact ⟨accounted, trivial, live, bound⟩
  | stopping visited =>
    simp only [atMain] at step
    have none : nextUser visited s.users = none := by simpa [singleOwner, atMain] using single
    rw [none] at step
    cases step
    exact ⟨accounted, trivial, live, bound⟩
  | exited => simp only [atMain] at step; cases step

theorem ConnectionInv.step (inv : ConnectionInv maxConcurrentClients s) (single : singleOwner s action = true)
    (step : chatStep maxConcurrentClients s action = some s') : ConnectionInv maxConcurrentClients s' := by
  cases action with
  | main accepted => exact inv.main single step
  | wakeup =>
    simp only [chatStep] at step
    split at step
    · cases step; exact ⟨inv.accounted, trivial, inv.live, inv.bound⟩
    · cases step
  | handler i r =>
    obtain ⟨c, found, -, move⟩ := handlerStep_move step
    exact inv.handler single found move
  | interrupt =>
    simp only [chatStep] at step
    split at step
    · cases step
    · cases step
      refine ⟨inv.accounted, ?_, inv.live, inv.bound⟩
      have owned := inv.owned
      unfold MainOwned at owned ⊢
      dsimp only
      split at owned
      · exact Or.inl rfl
      all_goals exact owned
  | interruptNotify =>
    simp only [chatStep] at step
    split at step
    · cases step
      refine ⟨inv.accounted, ?_, inv.live, inv.bound⟩
      have owned := inv.owned
      unfold MainOwned at owned ⊢
      rcases MainPc.notifyAll_cases s.main with same | testing
      · simpa only [same] using owned
      · simp only [testing]
    · cases step

theorem ConnectionInv.start (some : 1 ≤ maxConcurrentClients) : ConnectionInv maxConcurrentClients .start where
  accounted := nofun
  owned := trivial
  live := rfl
  bound := by simp only [ChatState.start]; omega

/-- The accounting of connections in the runs that refuse no name and leave no user to the loop
of main at the end. -/
theorem connection_accounting (some : 1 ≤ maxConcurrentClients)
    (via : (chatSystem maxConcurrentClients).ReachVia singleOwner s) :
    (∀ c ∈ s.connections, c.closes ≤ 1) ∧ s.liveUsers = s.openConnections ∧ 0 ≤ s.liveUsers ∧
      (s.openConnections : Int) ≤ maxConcurrentClients := by
  have inv : ConnectionInv maxConcurrentClients s := by
    refine via.invariant ?_ fun before action after inv single step => inv.step single step
    rintro _ rfl
    exact .start some
  have live := inv.live
  have bound := inv.bound
  exact ⟨fun c member => (inv.accounted c member).once, live, by omega, by omega⟩

/-- Main accepts two clients, which give these names and are registered if they can be. -/
def twoClients (first second : String) : List ChatAction :=
  List.replicate 12 (.main true) ++ List.replicate 4 (.handler 0 (.text (ascii first))) ++
    List.replicate 3 (.handler 1 (.text (ascii second)))

/-- Of two clients with different names the second one says goodbye. -/
theorem connection_accounting_two_clients :
    ∃ s, (chatSystem 2).exec .start (twoClients "ann" "bob" ++
        List.replicate 9 (.handler 1 (.text (ascii "\\bye")))) = some s ∧
      s.connections.map Connection.closes = [0, 1] ∧ s.liveUsers = s.openConnections := by
  have run : (chatSystem 2).execVia singleOwner .start (twoClients "ann" "bob" ++
    List.replicate 9 (.handler 1 (.text (ascii "\\bye")))) = some _ := rfl
  obtain ⟨-, live, -, -⟩ := connection_accounting (by decide) (System.ReachVia.exec (.start rfl) run)
  exact ⟨_, rfl, rfl, live⟩

/-- The second of two clients with the same name is closed twice; the first one is still
connected when `live_users` is back at zero. -/
theorem refused_client_closed_twice :
    ∃ s, (chatSystem 2).Reach s ∧ s.connections.map Connection.closes = [0, 2] ∧ s.liveUsers = 0 ∧
      s.openConnections = 1 := by
  have run : (chatSystem 2).exec .start (twoClients "ann" "ann" ++
    List.replicate 6 (.handler 1 (.text []))) = some _ := rfl
  exact ⟨_, System.Reach.exec (.start rfl) run, rfl, rfl, rfl⟩

end PCProject
