import PCProject.SongLostSlots

namespace PCProject
variable {maxConcurrentClients : Int} {songPaths : List String} {s s' t : SongServerState} {action : SongAction}
  {schedule : List SongAction} {accepted : Nat}

/-- A stop request now is overwritten by `stop = 0`. Between the calls of `socket` and `listen` it is not, because
`inthand` closes the socket and the next of these calls fails. -/
def AcceptPc.forgets : AcceptPc → Bool
  | .settingUp .songPaths | .settingUp .socket | .clearingStop => true
  | _ => false

/-- Main waits for a slot. -/
def AcceptPc.waiting : AcceptPc → Bool
  | .testing | .asleep | .signalled => true
  | _ => false

/-- Main is on the way to a call of `accept`, in an iteration that it has begun. -/
def AcceptPc.beforeAccept : AcceptPc → Bool
  | .testing | .asleep | .signalled | .allocating | .accepting => true
  | _ => false

/-- How far main is from its end when it begins no further iteration. -/
def AcceptPc.left : AcceptPc → Nat
  | .settingUp _ | .clearingStop => 10
  | .testing | .asleep | .signalled => 9
  | .allocating => 8
  | .accepting => 7
  | .counting _ => 6
  | .creating _ => 5
  | .accepted _ | .loop => 4
  | .stopping => 3
  | .freeing => 2
  | .returning => 1
  | .exited => 0

/-- Whether a step is a call of `accept`. -/
def SongServerState.accepts (s : SongServerState) : SongAction → Bool
  | .main _ _ => s.main = .accepting
  | _ => false

/-- The calls of `accept` along a schedule. -/
def acceptCalls (maxConcurrentClients : Int) (songPaths : List String) (s : SongServerState) : List SongAction → Nat
  | [] => 0
  | action :: rest =>
    (s.accepts action).toNat + ((songServerStep maxConcurrentClients songPaths s action).elim 0 fun s =>
      acceptCalls maxConcurrentClients songPaths s rest)

/-- A stop request made before `schedule` is still there after it. Main has called `accept` at most once more, no
connection that it has accepted since has a handler, and it is closer to its end with every step but the wait for
a slot: from the two tests of `stop` it goes to the end of the loop. -/
structure StopKept (maxConcurrentClients : Int) (songPaths : List String) (s : SongServerState)
    (schedule : List SongAction) (t : SongServerState) : Prop where
  stop : t.stop = true
  accepts : acceptCalls maxConcurrentClients songPaths s schedule ≤ 1
  refused : ∀ i c, s.connections.length ≤ i → t.connections[i]? = some c → c.handler = none
  nearer : t.main.left ≤ s.main.left
  leaves : ∀ success stack u, songMainStep maxConcurrentClients t success stack = some u →
    (u.main.left < t.main.left ∨ t.main.waiting = true ∧ u.main.waiting = true) ∧
    (t.main = .loop ∨ (∃ client, t.main = .accepted client) → u.main = .stopping)

/-- The connection in the hands of main exists. -/
theorem song_held_lt (reach : (songServerSystem maxConcurrentClients songPaths).Reach s) :
    ∀ i, s.main.held = some i → i < s.connections.length := by
  refine reach.invariant (I := fun s => ∀ i, s.main.held = some i → i < s.connections.length) ?_ ?_
  · intro s initial
    cases initial
    intro i same
    cases same
  · intro s action t _ held step
    have handler {i : Nat} {c : SongConnection} {t : SongServerState} (move : SongHandlerMove songPaths s i c t) :
        ∀ i, t.main.held = some i → i < t.connections.length := by
      cases move with
      | closeClient =>
        intro j
        rw [AcceptPc.held_signal]
        simpa [SongServerState.setConnection] using held j
      | _ => simpa [SongServerState.setConnection] using held
    cases songServerStep_move step with
    | main move =>
      cases move with
      | @setUp call => cases call <;> (intro i same; cases same)
      | accepts =>
        intro i here
        cases here
        simp
      | takesOn here => exact fun i same => held i (by rw [here]; exact same)
      | counts here =>
        intro i same
        simpa [SongServerState.setConnection] using held i (by rw [here]; exact same)
      | _ =>
        intro i same
        cases same
    | wakeup =>
      intro i same
      cases same
    | handler _ move => exact handler move
    | closeSocket _ move => exact handler move
    | interrupt => exact held
    | reuse => simpa [SongServerState.setConnection] using held

/-- Once the socket is closed the start-up goes on only if it had not called `socket`. -/
theorem ServerSocket.not_allows {socket : ServerSocket} {call : SetUpCall} (shut : socket ≠ .opened)
    (called : (AcceptPc.settingUp call).forgets = false) : socket.allows call = false := by
  cases call with
  | songPaths | socket => cases called
  | bind | listen => simp [allows, shut]

/-- The server after a stop request, `accepted` connections after the start of the program. -/
structure Stopping (accepted : Nat) (s : SongServerState) : Prop where
  stop : s.stop = true
  shut : s.socket ≠ .opened
  started : s.main.forgets = false
  refused : ∀ i c, accepted ≤ i → s.connections[i]? = some c → c.handler = none
  held : ∀ i, s.main = .counting i ∨ s.main = .creating i → i < accepted

/-- A change of a connection that gives no handler to a later one. -/
theorem Stopping.set {i : Nat} {c' : SongConnection} (stopping : Stopping accepted s)
    (late : accepted ≤ i → c'.handler = none) :
    ∀ j c, accepted ≤ j → (s.connections.set i c')[j]? = some c → c.handler = none := by
  intro j c after found
  by_cases same : i = j
  · subst same
    rw [List.getElem?_set_self'] at found
    obtain ⟨_, -, equal⟩ := Option.map_eq_some_iff.mp found
    exact equal ▸ late after
  · rw [List.getElem?_set_ne same] at found
    exact stopping.refused j c after found

theorem Stopping.handler {i : Nat} {c : SongConnection} (stopping : Stopping accepted s)
    (found : s.connections[i]? = some c) (move : SongHandlerMove songPaths s i c s') :
    Stopping accepted s' ∧ s'.main.left = s.main.left ∧ s'.main.beforeAccept = s.main.beforeAccept := by
  have early (thread : c.handler ≠ none) : ¬accepted ≤ i := fun late => thread (stopping.refused i c late found)
  cases move with
  | call thread =>
    have before := early (by rw [thread]; exact nofun)
    exact ⟨{ stopping with refused := stopping.set fun late => absurd late before }, rfl, rfl⟩
  | closeSocket thread =>
    have before := early (by rw [thread]; exact nofun)
    exact ⟨{ stopping with refused := stopping.set fun late => absurd late before }, rfl, rfl⟩
  | closeClient thread =>
    have before := early (by rw [thread]; exact nofun)
    refine ⟨⟨stopping.stop, stopping.shut, ?_, stopping.set fun late => absurd late before, ?_⟩, ?_, ?_⟩
    · exact (AcceptPc.signal_eq AcceptPc.forgets rfl s.main).trans stopping.started
    · intro j busy
      have same := AcceptPc.signal_eq (fun pc => pc = .counting j ∨ pc = .creating j) (by simp) s.main
      exact stopping.held j (same ▸ busy)
    · exact AcceptPc.signal_eq AcceptPc.left rfl s.main
    · exact AcceptPc.signal_eq AcceptPc.beforeAccept rfl s.main

/-- A step of main that only moves it. -/
theorem Stopping.moveMain {pc : AcceptPc} (stopping : Stopping accepted s) (started : pc.forgets = false)
    (held : pc.held = none) : Stopping accepted { s with main := pc } := by
  refine ⟨stopping.stop, stopping.shut, started, stopping.refused, fun i busy => ?_⟩
  rcases busy with here | here <;> (rw [show pc = _ from here] at held; cases held)

theorem Stopping.mainMove {success : Bool} {stack : Bytes} (stopping : Stopping accepted s)
    (move : SongMainMove maxConcurrentClients s success stack s') : Stopping accepted s' := by
  have ⟨stop, shut, started, refused, held⟩ := stopping
  cases move with
  | setUp here allowed =>
    rw [here] at started
    cases allowed.symm.trans (ServerSocket.not_allows shut started)
  | clearStop here => rw [here] at started; cases started
  | takesOn _ clear => cases stop.symm.trans clear
  | accepts =>
    refine ⟨stop, shut, rfl, fun i c after found => ?_, nofun⟩
    rw [List.getElem?_append] at found
    split at found
    · exact refused i c after found
    · rw [List.mem_singleton.mp (List.mem_of_getElem? found)]
  | refuses _ _ found =>
    have unhandled := fun late => refused _ _ late found
    exact ⟨stop, shut, rfl, stopping.set unhandled, nofun⟩
  | counts here found =>
    have before := held _ (Or.inl here)
    refine ⟨stop, shut, rfl, stopping.set fun late => absurd before (Nat.not_lt.mpr late), fun j busy => ?_⟩
    rcases busy with other | same
    · cases other
    · cases same
      exact before
  | creates here found =>
    have before := held _ (Or.inr here)
    exact ⟨stop, shut, rfl, stopping.set fun late => absurd before (Nat.not_lt.mpr late), nofun⟩
  | closesServer => exact ⟨stop, ServerSocket.close_ne_opened _, rfl, refused, nofun⟩
  | freesPaths => exact ⟨stop, shut, rfl, refused, nofun⟩
  | _ => exact stopping.moveMain rfl rfl

/-- Main comes closer to its end, or waits for a slot, and it does not come back to `accept`. -/
theorem Stopping.main_nearer {success : Bool} {stack : Bytes} (stopping : Stopping accepted s)
    (move : SongMainMove maxConcurrentClients s success stack s') :
    (s'.main.left < s.main.left ∨ s.main.waiting = true ∧ s'.main.waiting = true ∧ s'.main.left = s.main.left) ∧
    s'.main.beforeAccept.toNat + (s.accepts (.main success stack)).toNat ≤ s.main.beforeAccept.toNat := by
  have ⟨stop, shut, started, refused, held⟩ := stopping
  cases move with
  | setUp here allowed =>
    rw [here] at started
    cases allowed.symm.trans (ServerSocket.not_allows shut started)
  | waits here =>
    rcases here with here | here <;>
      simp [here, AcceptPc.left, AcceptPc.waiting, AcceptPc.beforeAccept, SongServerState.accepts]
  | proceeds here =>
    rcases here with here | here <;>
      simp [here, AcceptPc.left, AcceptPc.beforeAccept, SongServerState.accepts]
  | _ =>
    simp_all [AcceptPc.left, AcceptPc.forgets, AcceptPc.beforeAccept, SongServerState.accepts]

/-- Behind the two tests of `stop` main leaves the loop. -/
theorem Stopping.main_leaves {success : Bool} {stack : Bytes} (stopping : Stopping accepted s)
    (move : SongMainMove maxConcurrentClients s success stack s')
    (tests : s.main = .loop ∨ ∃ client, s.main = .accepted client) : s'.main = .stopping := by
  have stop := stopping.stop
  cases move with
  | enterLoop _ clear => cases stop.symm.trans clear
  | retries _ clear => cases stop.symm.trans clear
  | takesOn _ clear => cases stop.symm.trans clear
  | leaveLoop => rfl
  | stopsUnaccepted => rfl
  | refuses => rfl
  | waits here => rcases here with here | here <;> simp [here] at tests
  | proceeds here => rcases here with here | here <;> simp [here] at tests
  | _ => simp_all

theorem Stopping.move (stopping : Stopping accepted s)
    (move : SongServerMove maxConcurrentClients songPaths s action s') :
    Stopping accepted s' ∧ s'.main.left ≤ s.main.left ∧
      s'.main.beforeAccept.toNat + (s.accepts action).toNat ≤ s.main.beforeAccept.toNat := by
  cases move with
  | main move =>
    obtain ⟨nearer, once⟩ := stopping.main_nearer move
    exact ⟨stopping.mainMove move, by omega, once⟩
  | wakeup asleep =>
    refine ⟨stopping.moveMain rfl rfl, ?_, ?_⟩ <;> rw [asleep] <;> exact Nat.le_refl _
  | handler found move =>
    obtain ⟨after, left, before⟩ := stopping.handler found move
    exact ⟨after, left.le, by rw [before]; exact Nat.le_refl _⟩
  | closeSocket found move =>
    obtain ⟨after, left, before⟩ := stopping.handler found move
    exact ⟨after, left.le, by rw [before]; exact Nat.le_refl _⟩
  | interrupt =>
    refine ⟨?_, Nat.le_refl _, Nat.le_refl _⟩
    exact ⟨rfl, ServerSocket.close_ne_opened _, stopping.started, stopping.refused, stopping.held⟩
  | reuse found thread =>
    refine ⟨{ stopping with refused := stopping.set fun late => ?_ }, Nat.le_refl _, Nat.le_refl _⟩
    rw [stopping.refused _ _ late found] at thread
    cases thread

theorem Stopping.exec (stopping : Stopping accepted s)
    (run : (songServerSystem maxConcurrentClients songPaths).exec s schedule = some t) :
    Stopping accepted t ∧ t.main.left ≤ s.main.left ∧
      t.main.beforeAccept.toNat + acceptCalls maxConcurrentClients songPaths s schedule ≤
        s.main.beforeAccept.toNat := by
  induction schedule generalizing s with
  | nil =>
    cases run
    exact ⟨stopping, Nat.le_refl _, Nat.le_refl _⟩
  | cons action rest ih =>
    obtain ⟨middle, step, run⟩ := Option.bind_eq_some_iff.mp run
    obtain ⟨stopping', nearer, once⟩ := stopping.move (songServerStep_move step)
    obtain ⟨after, nearer', once'⟩ := ih stopping' run
    have calls : acceptCalls maxConcurrentClients songPaths s (action :: rest) =
        (s.accepts action).toNat + acceptCalls maxConcurrentClients songPaths middle rest := by
      rw [acceptCalls, show songServerStep maxConcurrentClients songPaths s action = some middle from step]
      rfl
    exact ⟨after, nearer'.trans nearer, by omega⟩

theorem Stopping.kept (stopping : Stopping s.connections.length s)
    (run : (songServerSystem maxConcurrentClients songPaths).exec s schedule = some t) :
    StopKept maxConcurrentClients songPaths s schedule t := by
  obtain ⟨after, nearer, once⟩ := stopping.exec run
  refine ⟨after.stop, ?_, after.refused, nearer, fun success stack u step => ?_⟩
  · have one := Bool.toNat_le s.main.beforeAccept
    omega
  · have move := songMainStep_move step
    exact ⟨(after.main_nearer move).1.imp_right fun waits => ⟨waits.1, waits.2.1⟩, after.main_leaves move⟩

/-- The calls that are left of the start-up can all succeed, and `stop = 0` overwrites the request. -/
theorem stop_forgotten (forgets : s.main.forgets = true) :
    ∃ schedule t, (songServerSystem maxConcurrentClients songPaths).exec s schedule = some t ∧ t.stop = false := by
  obtain ⟨connections, live, stop, socket, freed, main⟩ := s
  cases main with
  | settingUp call =>
    cases call with
    | songPaths => exact ⟨List.replicate 5 (.main true []), _, rfl, rfl⟩
    | socket => exact ⟨List.replicate 4 (.main true []), _, rfl, rfl⟩
    | bind | listen => cases forgets
  | clearingStop => exact ⟨[.main true []], _, rfl, rfl⟩
  | _ => cases forgets

/-- A stop request is kept, whatever happens after it, exactly if it comes while the start-up has the socket and has
not yet listened on it, or behind `stop = 0`. -/
theorem stop_request_kept (reach : (songServerSystem maxConcurrentClients songPaths).Reach s)
    (delivered : songServerStep maxConcurrentClients songPaths s .interrupt = some s') :
    (∀ schedule t, (songServerSystem maxConcurrentClients songPaths).exec s' schedule = some t →
      StopKept maxConcurrentClients songPaths s' schedule t) ↔ s.main.forgets = false := by
  have held := song_held_lt reach
  cases songServerStep_move delivered with
  | interrupt =>
    constructor
    · intro kept
      by_contra forgets
      obtain ⟨schedule, t, run, cleared⟩ := stop_forgotten (s := { s with stop := true, socket := s.socket.close })
        (Bool.eq_true_of_not_eq_false forgets)
      cases cleared.symm.trans (kept schedule t run).stop
    · intro started schedule t run
      refine Stopping.kept ⟨rfl, s.socket.close_ne_opened, started, fun i c after found => ?_, fun i busy => ?_⟩ run
      · rw [List.getElem?_eq_none after] at found
        cases found
      · rcases busy with here | here <;> exact held i (by rw [show s.main = _ from here]; rfl)

set_option maxRecDepth 8000 in
/-- The stop request comes before `socket`. The server starts all the same, and a client gets its handler. -/
theorem stop_request_lost :
    ∃ s' t, songServerStep 16 [] .start .interrupt = some s' ∧ s'.stop = true ∧
      (songServerSystem 16 []).exec s' (acceptSong (List.replicate bufferSize 0)) = some t ∧ t.stop = false ∧
      t.main = .loop ∧ t.connections.map (fun c => c.handler.isSome) = [true] ∧
      ¬StopKept 16 [] s' (acceptSong (List.replicate bufferSize 0)) t := by
  refine ⟨_, _, rfl, rfl, rfl, rfl, rfl, rfl, fun kept => ?_⟩
  cases kept.stop

/-- A stop request while main waits in `accept`: the client that comes in is refused. -/
theorem stop_request_kept_accepting :
    ∃ s s' t, (songServerSystem 16 []).exec .start (List.replicate 8 (.main true [])) = some s ∧ s.main = .accepting ∧
      songServerStep 16 [] s .interrupt = some s' ∧
      (songServerSystem 16 []).exec s' [.main true [], .main true []] = some t ∧ t.main = .stopping ∧
      StopKept 16 [] s' [.main true [], .main true []] t := by
  have run : (songServerSystem 16 []).exec .start (List.replicate 8 (.main true [])) = some _ := rfl
  have kept := (stop_request_kept (System.Reach.exec (.start rfl) run) rfl).mpr rfl
  exact ⟨_, _, _, rfl, rfl, rfl, rfl, rfl, kept _ _ rfl⟩

end PCProject
