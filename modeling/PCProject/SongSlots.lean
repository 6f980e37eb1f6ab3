import PCProject.SongMoves
import PCProject.Lib.ListCount
import Mathlib.Tactic.Linarith

namespace PCProject
variable {maxConcurrentClients : Int} {songPaths : List String} {s s' : SongServerState} {action : SongAction}

/-- The connection takes a slot: it has been counted and not been given back. -/
def SongConnection.occupies (c : SongConnection) : Bool := c.counted && c.decrements = 0

/-- Its handler thread exists and has not run `close_client` yet. -/
def SongConnection.running (c : SongConnection) : Bool := c.handler.any fun h => h.pc ≠ .returned

/-- A connection is counted before its handler starts, and the handler gives the slot back
exactly when it returns. -/
structure SongConnection.Accounted (c : SongConnection) : Prop where
  started : c.handler.isSome = true → c.counted = true
  unstarted : c.handler = none → c.decrements = 0
  decrements : ∀ h, c.handler = some h → c.decrements = if h.pc = .returned then 1 else 0
  closed : ∀ h, c.handler = some h → h.pc = .returned → c.closed = true

theorem SongConnection.Accounted.occupies_of_running {c : SongConnection} (accounted : c.Accounted)
    (running : c.running = true) : c.occupies = true := by
  unfold SongConnection.running at running
  cases thread : c.handler with
  | none =>
    rw [thread] at running
    cases running
  | some h =>
    have unreturned : h.pc ≠ .returned := by simpa [thread] using running
    have zero : c.decrements = 0 := by rw [accounted.decrements h thread, if_neg unreturned]
    simp [occupies, zero, accounted.started (by rw [thread]; rfl)]

theorem SongConnection.Accounted.running_of_occupies {c : SongConnection} (accounted : c.Accounted)
    (occupies : c.occupies = true) (thread : c.handler = none → c.counted = true → False) : c.running = true := by
  have taken : c.counted = true ∧ c.decrements = 0 := by simpa [SongConnection.occupies] using occupies
  cases here : c.handler with
  | none => exact (thread here taken.1).elim
  | some h =>
    have unreturned : h.pc ≠ .returned := by
      intro returned
      have once := accounted.decrements h here
      rw [if_pos returned, taken.2] at once
      cases once
    simpa [SongConnection.running, here] using unreturned

/-- What main knows where it is: the slot that it has seen, and the connection that it holds. -/
def SongServerState.MainHolds (maxConcurrentClients : Int) (s : SongServerState) : Prop :=
  match s.main with
  | .allocating | .accepting | .accepted none => s.liveHandlersCount < maxConcurrentClients
  | .accepted (some i) | .counting i => s.liveHandlersCount < maxConcurrentClients ∧ s.connections[i]? = some {}
  | .creating i => s.connections[i]? = some { counted := true }
  | .asleep => maxConcurrentClients ≤ s.liveHandlersCount
  | _ => True

structure SlotInv (maxConcurrentClients : Int) (s : SongServerState) : Prop where
  accounted : ∀ c ∈ s.connections, c.Accounted
  main : s.MainHolds maxConcurrentClients
  live : s.liveHandlersCount = s.connections.countP SongConnection.occupies
  bound : s.liveHandlersCount ≤ maxConcurrentClients

/-- The handlers keep their hands off the connection that main holds, and wake it when they
give a slot back. -/
theorem SongServerState.MainHolds.handler {i : Nat} {c c' : SongConnection} (holds : s.MainHolds maxConcurrentClients)
    (found : s.connections[i]? = some c) (thread : c.handler.isSome = true)
    (connections : s'.connections = s.connections.set i c')
    (wakes : s'.main = s.main ∧ s'.liveHandlersCount = s.liveHandlersCount ∨
      s'.main = s.main.signal ∧ s'.liveHandlersCount = s.liveHandlersCount - 1) :
    s'.MainHolds maxConcurrentClients := by
  have held {j : Nat} {d : SongConnection} (at_ : s.connections[j]? = some d) (free : d.handler = none) :
      s'.connections[j]? = some d := by
    have apart : i ≠ j := by
      intro same
      subst same
      rw [found] at at_
      cases at_
      rw [free] at thread
      cases thread
    simpa [connections, apart] using at_
  have below (room : s.liveHandlersCount < maxConcurrentClients) : s'.liveHandlersCount < maxConcurrentClients := by
    omega
  have awake {pc : AcceptPc} (here : s.main = pc) (other : pc ≠ .asleep) : s'.main = pc := by
    rcases wakes with ⟨same, -⟩ | ⟨signal, -⟩
    · rw [same, here]
    · rw [signal, here, AcceptPc.signal, if_neg other]
  unfold MainHolds at holds ⊢
  cases here : s.main with
  | asleep =>
    simp only [here] at holds
    rcases wakes with ⟨same, live⟩ | ⟨signal, -⟩
    · rw [same, here]
      simpa only [live] using holds
    · rw [signal, here]
      trivial
  | allocating | accepting =>
    simp only [here] at holds
    rw [awake here nofun]
    exact below holds
  | accepted client =>
    simp only [here] at holds
    rw [awake here nofun]
    cases client with
    | none => exact below holds
    | some j => exact ⟨below holds.1, held holds.2 rfl⟩
  | counting j =>
    simp only [here] at holds
    rw [awake here nofun]
    exact ⟨below holds.1, held holds.2 rfl⟩
  | creating j =>
    simp only [here] at holds
    rw [awake here nofun]
    exact held holds rfl
  | _ =>
    rw [awake here nofun]
    trivial

/-- The count follows the slots when one connection changes. -/
theorem SongServerState.live_set {i : Nat} {c c' : SongConnection}
    (live : s.liveHandlersCount = s.connections.countP SongConnection.occupies) (found : s.connections[i]? = some c)
    (connections : s'.connections = s.connections.set i c')
    (count : s'.liveHandlersCount + (if c.occupies then 1 else 0) =
      s.liveHandlersCount + (if c'.occupies then 1 else 0)) :
    s'.liveHandlersCount = s'.connections.countP SongConnection.occupies := by
  have changed := congrArg (Nat.cast : Nat → Int) (countP_set_add (p := SongConnection.occupies) c' found)
  push_cast at changed
  rw [connections]
  linarith only [live, count, changed]

theorem SlotInv.handler {i : Nat} {c : SongConnection} (inv : SlotInv maxConcurrentClients s)
    (found : s.connections[i]? = some c) (move : SongHandlerMove songPaths s i c s') :
    SlotInv maxConcurrentClients s' := by
  have mine := inv.accounted c (List.mem_of_getElem? found)
  have live := inv.live
  have bound := inv.bound
  cases move with
  | @call h h' call thread before after =>
    have zero : c.decrements = 0 := by rw [mine.decrements h thread, if_neg before]
    have accounted (late : Bool) : { c with handler := some h', late := late : SongConnection }.Accounted := by
      refine ⟨fun _ => mine.started (by rw [thread]; rfl), nofun, ?_, ?_⟩
      · intro g same
        cases same
        rw [if_neg after]
        exact zero
      · intro g same returned
        cases same
        exact absurd returned after
    refine ⟨forall_mem_set inv.accounted (accounted _), ?_, ?_, bound⟩
    · exact inv.main.handler found (by rw [thread]; rfl) rfl (Or.inl ⟨rfl, rfl⟩)
    · exact SongServerState.live_set live found rfl rfl
  | @closeSocket h thread closing open_ =>
    have accounted : { c with closed := true }.Accounted :=
      ⟨mine.started, mine.unstarted, mine.decrements, fun _ _ _ => rfl⟩
    refine ⟨forall_mem_set inv.accounted accounted, ?_, ?_, bound⟩
    · exact inv.main.handler found (by rw [thread]; rfl) rfl (Or.inl ⟨rfl, rfl⟩)
    · exact SongServerState.live_set live found rfl rfl
  | @closeClient h h' thread closing returned closed =>
    have counted := mine.started (by rw [thread]; rfl)
    have zero : c.decrements = 0 := by rw [mine.decrements h thread, if_neg (by rw [closing]; exact nofun)]
    have accounted : { c with handler := some h', decrements := c.decrements + 1 : SongConnection }.Accounted := by
      refine ⟨fun _ => counted, nofun, ?_, fun _ _ _ => closed⟩
      intro g same
      cases same
      rw [if_pos returned]
      exact congrArg (· + 1) zero
    refine ⟨forall_mem_set inv.accounted accounted, ?_, ?_, by dsimp only; omega⟩
    · exact inv.main.handler found (by rw [thread]; rfl) rfl (Or.inr ⟨rfl, rfl⟩)
    · refine SongServerState.live_set live found rfl ?_
      simp [SongConnection.occupies, counted, zero]

/-- Another file behind the descriptor of a handler. -/
theorem SlotInv.reuse {i : Nat} {c : SongConnection} {h : SongHandler} {file : FileStream}
    (inv : SlotInv maxConcurrentClients s) (found : s.connections[i]? = some c) (thread : c.handler = some h) :
    SlotInv maxConcurrentClients (s.setConnection i { c with handler := some { h with fd := some file } }) := by
  have mine := inv.accounted c (List.mem_of_getElem? found)
  have accounted : { c with handler := some { h with fd := some file } : SongConnection }.Accounted := by
    refine ⟨fun _ => mine.started (by rw [thread]; rfl), fun free => (by cases free), ?_, ?_⟩
    · intro g same
      cases same
      exact mine.decrements h thread
    · intro g same returned
      cases same
      exact mine.closed h thread returned
  refine ⟨forall_mem_set inv.accounted accounted, ?_, ?_, inv.bound⟩
  · exact inv.main.handler found (by rw [thread]; rfl) rfl (Or.inl ⟨rfl, rfl⟩)
  · exact SongServerState.live_set inv.live found rfl rfl

/-- A connection that main has accepted and not handed over yet. -/
theorem SongConnection.Accounted.waiting (closed counted : Bool) :
    { closed := closed, counted := counted : SongConnection }.Accounted :=
  ⟨nofun, fun _ => rfl, nofun, nofun⟩

theorem SlotInv.mainMove {success : Bool} {stack : Bytes} (inv : SlotInv maxConcurrentClients s)
    (move : SongMainMove maxConcurrentClients s success stack s') : SlotInv maxConcurrentClients s' := by
  have ⟨accounted, holds, live, bound⟩ := inv
  unfold SongServerState.MainHolds at holds
  cases move with
  | @setUp call stack here => cases call <;> exact ⟨accounted, trivial, live, bound⟩
  | waits here full => exact ⟨accounted, full, live, bound⟩
  | proceeds here room => exact ⟨accounted, room, live, bound⟩
  | allocates here =>
    simp only [here] at holds
    exact ⟨accounted, holds, live, bound⟩
  | accepts here =>
    simp only [here] at holds
    refine ⟨?_, ⟨holds, by simp⟩, ?_, bound⟩
    · intro c member
      rcases List.mem_append.mp member with old | new
      · exact accounted c old
      · rw [List.mem_singleton.mp new]
        exact .waiting false false
    · rw [List.countP_append, live]
      rfl
  | acceptFails here =>
    simp only [here] at holds
    exact ⟨accounted, holds, live, bound⟩
  | refuses here stopped found =>
    simp only [here] at holds
    cases found.symm.trans holds.2
    exact ⟨forall_mem_set accounted (.waiting true false), trivial, SongServerState.live_set live found rfl rfl, bound⟩
  | takesOn here _ found =>
    simp only [here] at holds
    exact ⟨accounted, holds, live, bound⟩
  | counts here found =>
    simp only [here] at holds
    cases found.symm.trans holds.2
    have inside := (List.getElem?_eq_some_iff.mp found).1
    have room := holds.1
    exact ⟨forall_mem_set accounted (.waiting false true),
      by simp [SongServerState.MainHolds, SongServerState.setConnection, inside],
      SongServerState.live_set live found rfl (by simp [SongConnection.occupies]), by dsimp only; omega⟩
  | creates here found =>
    simp only [here] at holds
    cases found.symm.trans holds
    have started : { handler := some (.start stack), counted := true : SongConnection }.Accounted := by
      refine ⟨fun _ => rfl, nofun, ?_, ?_⟩
      · intro h same
        cases same
        rfl
      · intro h same returned
        cases same
        cases returned
    exact ⟨forall_mem_set accounted started, trivial, SongServerState.live_set live found rfl rfl, bound⟩
  | _ => exact ⟨accounted, trivial, live, bound⟩

theorem SlotInv.move (inv : SlotInv maxConcurrentClients s)
    (move : SongServerMove maxConcurrentClients songPaths s action s') : SlotInv maxConcurrentClients s' := by
  cases move with
  | main move => exact inv.mainMove move
  | wakeup => exact ⟨inv.accounted, trivial, inv.live, inv.bound⟩
  | handler found move => exact inv.handler found move
  | closeSocket found move => exact inv.handler found move
  | interrupt => exact ⟨inv.accounted, inv.main, inv.live, inv.bound⟩
  | reuse found thread => exact inv.reuse found thread

theorem song_slots (some : 1 ≤ maxConcurrentClients)
    (reach : (songServerSystem maxConcurrentClients songPaths).Reach s) :
    SlotInv maxConcurrentClients s := by
  induction reach with
  | start initial =>
    cases initial
    exact ⟨nofun, trivial, rfl, by simp only [SongServerState.start]; omega⟩
  | next _ step ih => exact ih.move (songServerStep_move step)

/-- The concurrency limit of the song server, for every run of main and its handlers. -/
theorem song_server_concurrency_limit (some : 1 ≤ maxConcurrentClients)
    (reach : (songServerSystem maxConcurrentClients songPaths).Reach s) :
    0 ≤ s.liveHandlersCount ∧ s.liveHandlersCount ≤ maxConcurrentClients ∧
      (s.connections.countP SongConnection.running : Int) ≤ s.liveHandlersCount ∧
      (∀ c ∈ s.connections, ∀ h, c.handler = .some h → c.counted = true ∧
        c.decrements = if h.pc = .returned then 1 else 0) ∧
      ¬(s.main = .asleep ∧ s.liveHandlersCount < maxConcurrentClients) := by
  have inv := song_slots some reach
  have live := inv.live
  refine ⟨by omega, inv.bound, ?_, ?_, ?_⟩
  · rw [live]
    refine Int.ofNat_le.mpr (List.countP_mono_left fun c member running => ?_)
    have accounted := inv.accounted c member
    exact accounted.occupies_of_running running
  · exact fun c member h thread => ⟨(inv.accounted c member).started (by rw [thread]; rfl),
      (inv.accounted c member).decrements h thread⟩
  · intro sleeping
    obtain ⟨asleep, below⟩ := sleeping
    have full := inv.main
    simp only [SongServerState.MainHolds, asleep] at full
    omega

/-- Main accepts a client, starts its handler and comes back to the test of its loop. -/
def acceptSong (stack : Bytes) : List SongAction := List.replicate 12 (.main true stack)

set_option maxRecDepth 8000 in
theorem song_server_concurrency_limit_full :
    ∃ s : SongServerState, s.main = .asleep ∧ s.connections.map SongConnection.running = [true] ∧
      s.liveHandlersCount ≤ 1 ∧ ¬(s.main = .asleep ∧ s.liveHandlersCount < 1) := by
  have run : (songServerSystem 1 []).exec .start
      (acceptSong (List.replicate bufferSize 0) ++ List.replicate 2 (.main true [])) = some _ := rfl
  obtain ⟨-, bound, -, -, awake⟩ := song_server_concurrency_limit (by decide) (System.Reach.exec (.start rfl) run)
  exact ⟨_, rfl, rfl, bound, awake⟩

end PCProject
