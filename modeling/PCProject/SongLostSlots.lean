import PCProject.SongSlots

namespace PCProject
variable {maxConcurrentClients : Int} {songPaths : List String} {s s' : SongServerState} {action : SongAction}

/-- The step is not a `pthread_create` that fails. -/
def createsThreads (s : SongServerState) : SongAction → Bool
  | .main success _ =>
    match s.main with
    | .creating _ => success
    | _ => true
  | _ => true

/-- The connection that main has accepted and not handed over yet. -/
def AcceptPc.held : AcceptPc → Option Nat
  | .accepted client => client
  | .counting i | .creating i => some i
  | _ => none

/-- A connection without a handler is closed or in the hands of main, and if it has been counted
then its handler is about to be created. -/
structure HandedOver (s : SongServerState) : Prop where
  closed : ∀ i c, s.connections[i]? = some c → c.handler = none → c.closed = true ∨ s.main.held = some i
  counted : ∀ i c, s.connections[i]? = some c → c.handler = none → c.counted = true → s.main = .creating i

theorem AcceptPc.held_signal (pc : AcceptPc) : pc.signal.held = pc.held := AcceptPc.signal_eq held rfl pc

theorem AcceptPc.signal_creating {pc : AcceptPc} {i : Nat} (here : pc = .creating i) : pc.signal = .creating i := by
  rw [here]
  rfl

/-- A step that changes one connection that has a handler, before and after it. -/
theorem HandedOver.set {i : Nat} {c' : SongConnection} (kept : HandedOver s) (thread : c'.handler.isSome = true)
    (connections : s'.connections = s.connections.set i c') (held : s'.main.held = s.main.held)
    (creating : ∀ j, s.main = .creating j → s'.main = .creating j) : HandedOver s' := by
  have old {j : Nat} {d : SongConnection} (found : s'.connections[j]? = some d) (free : d.handler = none) :
      s.connections[j]? = some d := by
    rw [connections] at found
    by_cases same : i = j
    · subst same
      rw [List.getElem?_set_self'] at found
      obtain ⟨_, -, equal⟩ := Option.map_eq_some_iff.mp found
      rw [show c' = d from equal, free] at thread
      cases thread
    · rwa [List.getElem?_set_ne same] at found
  constructor
  · intro j d found free
    rw [held]
    exact kept.closed j d (old found free) free
  · exact fun j d found free counted => creating j (kept.counted j d (old found free) free counted)

theorem HandedOver.handler {i : Nat} {c : SongConnection} (kept : HandedOver s)
    (move : SongHandlerMove songPaths s i c s') : HandedOver s' := by
  cases move with
  | call => exact kept.set rfl rfl rfl fun _ here => here
  | closeSocket thread => exact kept.set (by rw [thread]; rfl) rfl rfl fun _ here => here
  | closeClient => exact kept.set rfl rfl (AcceptPc.held_signal _) fun _ here => AcceptPc.signal_creating here

/-- A step of main that leaves the connections alone. -/
theorem HandedOver.keep (kept : HandedOver s) (connections : s'.connections = s.connections)
    (free : s.main.held = none) :
    HandedOver s' := by
  constructor
  · intro i c found none
    rw [connections] at found
    have closed := (kept.closed i c found none).resolve_right (by rw [free]; exact nofun)
    exact Or.inl closed
  · intro i c found none counted
    rw [connections] at found
    have here := kept.counted i c found none counted
    rw [here] at free
    cases free

/-- A step of main that changes only the connection that it holds. -/
theorem HandedOver.change {i : Nat} {c' : SongConnection} (kept : HandedOver s) (held : s.main.held = some i)
    (here : s'.connections[i]? = some c') (others : ∀ j, j ≠ i → s'.connections[j]? = s.connections[j]?)
    (closed : c'.handler = none → c'.closed = true ∨ s'.main.held = some i)
    (counted : c'.handler = none → c'.counted = true → s'.main = .creating i) : HandedOver s' := by
  constructor
  · intro j d found none
    by_cases same : j = i
    · rw [same, here] at found
      cases found
      rw [same]
      exact closed none
    · rw [others j same] at found
      refine Or.inl ((kept.closed j d found none).resolve_right ?_)
      rw [held]
      exact fun equal => same (Option.some.inj equal).symm
  · intro j d found none count
    by_cases same : j = i
    · rw [same, here] at found
      cases found
      rw [same]
      exact counted none count
    · rw [others j same] at found
      have creating := kept.counted j d found none count
      rw [creating] at held
      exact absurd (Option.some.inj held) same

theorem HandedOver.mainMove {success : Bool} {stack : Bytes} (kept : HandedOver s)
    (inv : SlotInv maxConcurrentClients s)
    (creates : createsThreads s (.main success stack) = true)
    (move : SongMainMove maxConcurrentClients s success stack s') : HandedOver s' := by
  have holds := inv.main
  unfold SongServerState.MainHolds at holds
  cases move with
  | setUp here => exact kept.keep rfl (by rw [here]; rfl)
  | setUpFails here => exact kept.keep rfl (by rw [here]; rfl)
  | clearStop here => exact kept.keep rfl (by rw [here]; rfl)
  | enterLoop here => exact kept.keep rfl (by rw [here]; rfl)
  | leaveLoop here => exact kept.keep rfl (by rw [here]; rfl)
  | waits here => exact kept.keep rfl (by rcases here with here | here <;> (rw [here]; rfl))
  | proceeds here => exact kept.keep rfl (by rcases here with here | here <;> (rw [here]; rfl))
  | allocates here => exact kept.keep rfl (by rw [here]; rfl)
  | allocateFails here => exact kept.keep rfl (by rw [here]; rfl)
  | accepts atMain =>
    have old {i : Nat} {c : SongConnection} (found : s.connections[i]? = some c) (none : c.handler = none) :
        c.closed = true := (kept.closed i c found none).resolve_right (by rw [atMain]; intro held; cases held)
    constructor
    · intro i c found none
      rcases Nat.lt_trichotomy i s.connections.length with before | here | after
      · rw [List.getElem?_append_left before] at found
        exact Or.inl (old found none)
      · exact Or.inr (congrArg some here.symm)
      · rw [List.getElem?_eq_none (by simp; omega)] at found
        cases found
    · intro i c found none counted
      rcases List.mem_append.mp (List.mem_of_getElem? found) with earlier | new
      · obtain ⟨j, at_⟩ := List.mem_iff_getElem?.mp earlier
        have here := kept.counted j c at_ none counted
        rw [atMain] at here
        cases here
      · rw [List.mem_singleton.mp new] at counted
        cases counted
  | acceptFails here => exact kept.keep rfl (by rw [here]; rfl)
  | stopsUnaccepted here => exact kept.keep rfl (by rw [here]; rfl)
  | retries here => exact kept.keep rfl (by rw [here]; rfl)
  | refuses here _ found =>
    simp only [here] at holds
    cases found.symm.trans holds.2
    have inside := (List.getElem?_eq_some_iff.mp found).1
    exact kept.change (by rw [here]; rfl) (List.getElem?_set_self inside)
      (fun j apart => List.getElem?_set_ne apart.symm) (fun _ => Or.inl rfl) (fun _ counted => by cases counted)
  | takesOn here _ found =>
    simp only [here] at holds
    cases found.symm.trans holds.2
    exact kept.change (by rw [here]; rfl) found (fun _ _ => rfl) (fun _ => Or.inr rfl)
      (fun _ counted => by cases counted)
  | counts here found =>
    have inside := (List.getElem?_eq_some_iff.mp found).1
    exact kept.change (by rw [here]; rfl) (List.getElem?_set_self inside)
      (fun j apart => List.getElem?_set_ne apart.symm) (fun _ => Or.inr rfl) (fun _ _ => rfl)
  | creates here found =>
    have inside := (List.getElem?_eq_some_iff.mp found).1
    exact kept.change (by rw [here]; rfl) (List.getElem?_set_self inside)
      (fun j apart => List.getElem?_set_ne apart.symm) (fun none => by cases none) fun none => by cases none
  | createFails here =>
    rw [createsThreads, here] at creates
    cases creates
  | closesServer here => exact kept.keep rfl (by rw [here]; rfl)
  | freesPaths here => exact kept.keep rfl (by rw [here]; rfl)
  | returns here => exact kept.keep rfl (by rw [here]; rfl)

theorem HandedOver.move (kept : HandedOver s) (inv : SlotInv maxConcurrentClients s)
    (creates : createsThreads s action = true)
    (move : SongServerMove maxConcurrentClients songPaths s action s') : HandedOver s' := by
  cases move with
  | main move => exact kept.mainMove inv creates move
  | wakeup asleep => exact kept.keep rfl (by rw [asleep]; rfl)
  | handler _ move => exact kept.handler move
  | closeSocket _ move => exact kept.handler move
  | interrupt => exact ⟨kept.closed, kept.counted⟩
  | reuse => exact kept.set rfl rfl rfl fun _ here => here

theorem song_handed_over (some : 1 ≤ maxConcurrentClients)
    (via : (songServerSystem maxConcurrentClients songPaths).ReachVia createsThreads s) : HandedOver s := by
  induction via with
  | start initial =>
    cases initial
    constructor <;> (intro i c found; cases i <;> cases found)
  | next before creates step ih => exact ih.move (song_slots some before.reach) creates (songServerStep_move step)

/-- The slots in the runs in which every `pthread_create` succeeds. -/
theorem song_slots_kept (some : 1 ≤ maxConcurrentClients)
    (via : (songServerSystem maxConcurrentClients songPaths).ReachVia createsThreads s)
    (idle : ∀ i, s.main ≠ .creating i) :
    s.liveHandlersCount = s.connections.countP SongConnection.running ∧
      ((∀ c ∈ s.connections, c.running = false) → s.liveHandlersCount = 0 ∧
        ∀ i c, s.connections[i]? = .some c → s.main.held ≠ .some i → c.closed = true) := by
  have inv := song_slots some via.reach
  have kept := song_handed_over some via
  have live : s.liveHandlersCount = s.connections.countP SongConnection.running := by
    rw [inv.live]
    refine congrArg Nat.cast (List.countP_congr fun c member => ?_)
    have accounted := inv.accounted c member
    refine ⟨fun occupies => ?_, accounted.occupies_of_running⟩
    obtain ⟨i, found⟩ := List.mem_iff_getElem?.mp member
    exact accounted.running_of_occupies occupies fun none counted => idle i (kept.counted i c found none counted)
  refine ⟨live, fun finished => ⟨?_, ?_⟩⟩
  · rw [live, List.countP_eq_zero.mpr fun c member => by simp [finished c member]]
    rfl
  · intro i c found free
    have member := List.mem_of_getElem? found
    cases thread : c.handler with
    | none => exact (kept.closed i c found thread).resolve_right free
    | some h =>
      have returned : h.pc = .returned := by simpa [SongConnection.running, thread] using finished c member
      exact (inv.accounted c member).closed h thread returned

set_option maxRecDepth 8000 in
/-- A client that leaves before it has asked for a song gives its slot back. -/
theorem song_slots_kept_one_client :
    ∃ s : SongServerState, s.main = .loop ∧ s.liveHandlersCount = 0 ∧ s.connections.map SongConnection.closed = [true] ∧
      s.liveHandlersCount = s.connections.countP SongConnection.running := by
  have run : (songServerSystem 1 []).execVia createsThreads .start (acceptSong (List.replicate bufferSize 0) ++
    [.handler 0 (.recv none), .closeSocket 0, .handler 0 .closeClient]) = some _ := rfl
  have kept := song_slots_kept (by decide) (System.ReachVia.exec (.start rfl) run) nofun
  exact ⟨_, rfl, rfl, rfl, kept.1⟩

/-- A `pthread_create` that fails takes its slot for good, and the client stays connected. -/
theorem failed_thread_keeps_its_slot :
    ∃ s, (songServerSystem 1 []).Reach s ∧ s.main = .loop ∧ s.liveHandlersCount = 1 ∧
      s.connections.map SongConnection.running = [false] ∧ s.connections.map SongConnection.closed = [false] := by
  have run : (songServerSystem 1 []).exec .start (List.replicate 11 (.main true []) ++ [.main false []]) = some _ := rfl
  exact ⟨_, System.Reach.exec (.start rfl) run, rfl, rfl, rfl, rfl⟩

end PCProject
