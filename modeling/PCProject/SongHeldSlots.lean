import PCProject.SongNetwork
import PCProject.SongSessionEnd
import Mathlib.Algebra.Order.BigOperators.Group.Finset

namespace PCProject

/-- A client that has sent nothing yet does not send anything from here on, as long as no call fails. -/
def SessionConfig.keepsQuiet (cfg : SessionConfig) : PlayerPc → Bool
  | .prompting => (typedRequest cfg.typed cfg.command).any List.isEmpty
  | .requesting request => request.isEmpty
  | pc => !pc.ended

/-- The handler waits for a request that does not come: the client has an empty one, or its `send` has failed. -/
def SongSession.silent (cfg : SessionConfig) (s : SongSession) : Bool :=
  s.handler.pc = .receiving && s.player.sent.isEmpty && cfg.keepsQuiet s.player.pc

/-- The slot of the connection is taken for good: it has no handler, or its client is silent. -/
def SongNetwork.held (cfg : NetworkConfig) (s : SongNetwork) (i : Nat) : Bool :=
  s.server.connections[i]?.any fun c => c.occupies && (c.handler.isNone || (s.session cfg i).silent (cfg.session i))

def SongNetwork.heldSlots (cfg : NetworkConfig) (s : SongNetwork) : Nat :=
  (List.range s.server.connections.length).countP (s.held cfg)

/-- An error result of a call on a connection. -/
def NetworkAction.faulty : NetworkAction → Bool
  | .handler _ call => (SessionAction.handler call).faulty
  | .player _ call => (SessionAction.player call).faulty
  | _ => false

/-- No error result of main and nothing from outside: a signal, a spurious wakeup, another file behind a descriptor. -/
def NetworkAction.own : NetworkAction → Bool
  | .main success => success
  | .wakeup | .interrupt | .kill | .reuse _ _ => false
  | _ => true

/-- Main is in front of its test of the number of handlers, or waits there. -/
def AcceptPc.waits : AcceptPc → Bool
  | .loop | .testing | .asleep | .signalled => true
  | _ => false

/-- Main has left its loop. -/
def AcceptPc.stops : AcceptPc → Bool
  | .stopping | .freeing | .returning | .exited => true
  | _ => false

theorem AcceptPc.ne_exited {pc : AcceptPc} (waits : pc.waits = true) : pc ≠ .exited := by
  rintro rfl
  cases waits

section Session
variable {cfg : SessionConfig} {s s' : SongSession}

theorem SongSession.silent_of_handler (later : s.handler.pc ≠ .receiving) : s.silent cfg = false := by
  simp [silent, later]

/-- A silent client has not sent anything, so no call of a handler is possible. -/
theorem SessionInv.silent_call {call : SongCall} {h' : SongHandler} (inv : SessionInv cfg s)
    (fine : SessionAction.faulty (.handler call) = false) (answers : s.answersHandler cfg call = true)
    (move : SongCallEffect cfg.songPaths s.handler call h') : s.silent cfg = false := by
  have message {m : Bytes} (nonempty : m ≠ []) (front : m <+: s.uplink) : s.silent cfg = false := by
    have sent : s.player.sent ≠ [] := by
      intro nothing
      rw [(List.append_eq_nil_iff.mp (inv.up.trans nothing)).2] at front
      exact nonempty (List.prefix_nil.mp front)
    simp [SongSession.silent, sent]
  cases move with
  | recvFailed => cases fine
  | recvClosed =>
    simp only [SongSession.answersHandler, Bool.and_eq_true] at answers
    cases place : s.player.pc with
    | exited | finished => simp [SongSession.silent, SessionConfig.keepsQuiet, place, PlayerPc.ended]
    | _ =>
      rw [place] at answers
      cases answers.2
  | refused _ nonempty => exact message nonempty (answersHandler_taken answers)
  | chosen _ nonempty => exact message nonempty (answersHandler_taken answers)
  | _ => exact SongSession.silent_of_handler (by simp [*])

/-- As long as no call fails, a silent client stays silent, and no other one becomes so. -/
theorem SessionMove.silent {action : SessionAction} (inv : SessionInv cfg s) (fine : action.faulty = false)
    (move : SessionMove cfg s action s') : s'.silent cfg = s.silent cfg := by
  cases move with
  | player answers move =>
    cases move with
    | sendFailed | popenFailed | recvFailed | fwriteFailed => cases fine
    | fgets place reads => simp [SongSession.silent, SessionConfig.keepsQuiet, place, reads]
    | @send request n place fits some_ =>
      have player := inv.player
      rw [PlayerInv, place] at player
      have taken : (request.take n).isEmpty = request.isEmpty := by
        cases request with
        | nil => rw [List.take_nil]
        | cons b rest =>
          obtain ⟨k, same⟩ := Nat.exists_eq_add_of_le' (some_ (List.cons_ne_nil b rest))
          rw [same]
          rfl
      simp [SongSession.silent, SessionConfig.keepsQuiet, place, player.2.1, taken, PlayerPc.ended]
    | popen place => simp [SongSession.silent, SessionConfig.keepsQuiet, place, PlayerPc.ended]
    | recvEnd place =>
      have later : s.handler.pc ≠ .receiving := by
        simp only [SongSession.answersPlayer, Bool.and_eq_true] at answers
        rcases inv.closing answers.2 with here | here <;> simp [here]
      simp [SongSession.silent, later]
    | recv place => simp [SongSession.silent, SessionConfig.keepsQuiet, place, PlayerPc.ended]
    | fwrite place => simp [SongSession.silent, SessionConfig.keepsQuiet, place, PlayerPc.ended]
  | handler answers move =>
    rw [inv.silent_call fine answers move, SongSession.silent_of_handler move.leaves.1]
  | closeSocket => rfl

end Session

variable {cfg : NetworkConfig} {s t : SongNetwork} {action : NetworkAction} {i j : Nat} {c : SongConnection}
  {h : SongHandler}

theorem SongNetwork.held_none (found : s.server.connections[i]? = some c) (free : c.handler = none) :
    s.held cfg i = c.occupies := by
  simp [held, found, free]

theorem SongNetwork.held_some (found : s.server.connections[i]? = some c) (thread : c.handler = some h) :
    s.held cfg i = (c.occupies && (s.session cfg i).silent (cfg.session i)) := by
  simp [held, found, thread]

/-- No slot is held for good by a handler that has received. -/
theorem SongNetwork.held_received (found : s.server.connections[i]? = some c) (thread : c.handler = some h)
    (received : h.pc ≠ .receiving) : s.held cfg i = false := by
  have seen : s.server.seenAt (cfg.stack i) i = (h, c.closed) := SongServerState.seenAt_of found thread
  have later : (s.session cfg i).handler.pc ≠ .receiving := by simpa [SongNetwork.session, seen] using received
  rw [SongNetwork.held_some found thread, SongSession.silent_of_handler later, Bool.and_false]

/-- A handler that is not late is that of a session. -/
theorem network_session_inv (some_ : 1 ≤ cfg.maxConcurrentClients) (reach : (songNetwork cfg).Reach s)
    (running : s.server.main ≠ .exited) (found : s.server.connections[i]? = some c) (thread : c.handler = some h)
    (intime : c.late = false) : SessionInv (cfg.session i) (s.session cfg i) := by
  rcases network_sessions some_ reach i with inside | ⟨u, -, cut | late⟩
  · exact SessionInv.reach inside
  · exact (cut.alone running found thread).elim
  · simp [SongServerState.lateAt, found, intime] at late

/-- A call of a connection that does not fail neither takes a slot for good nor gives such a slot back. -/
theorem NetworkMove.held_own (move : NetworkMove cfg s action t) (some_ : 1 ≤ cfg.maxConcurrentClients)
    (reach : (songNetwork cfg).Reach s) (fine : action.faulty = false) (running : s.server.main ≠ .exited)
    (own : action.connection = some i) : t.held cfg i = s.held cfg i := by
  have inv := network_inv some_ reach
  have quiet {b : SessionAction} {u : SongSession} {c : SongConnection} {h : SongHandler}
      (found : s.server.connections[i]? = some c) (thread : c.handler = some h) (place : h.pc = .receiving)
      (fine : b.faulty = false) (step : sessionStep (cfg.session i) (s.session cfg i) b = some u) :
      u.silent (cfg.session i) = (s.session cfg i).silent (cfg.session i) := by
    have intime : c.late = false := by
      by_contra late
      exact (inv.shut.ordered c (List.mem_of_getElem? found)).late h thread (Bool.eq_true_of_not_eq_false late) place
    exact (sessionStep_iff.mp step).silent (network_session_inv some_ reach running found thread intime) fine
  cases move with
  | main | wakeup | interrupt | kill => cases own
  | @handler i call server _ answers moved =>
    cases own
    obtain ⟨c, h, h', c', found, thread, step, connections, thread', -, -, -, other⟩ := songHandlerStep_view moved
    have found' : (s.called i call server).server.connections[i]? = some c' := by
      rw [SongNetwork.called, connections, getElem?_set_found found]
    by_cases place : h.pc = .receiving
    · cases call with
      | recv received =>
        have stays := quiet found thread place fine (SongNetwork.session_handler answers moved)
        rw [SongNetwork.held_some found thread, SongNetwork.held_some found' thread', other (by simp), stays]
      | _ => simp [songStep, place] at step
    · rw [SongNetwork.held_received found thread place, SongNetwork.held_received found' thread' (songStep_leaves step)]
  | @closeSocket i server _ moved =>
    cases own
    obtain ⟨c, h, found, thread, closing, -, connections⟩ := songCloseSocket_view moved
    have found' : server.connections[i]? = some { c with closed := true } := by
      rw [connections, getElem?_set_found found]
    have later : h.pc ≠ .receiving := by simp [closing]
    rw [SongNetwork.held_received found thread later]
    exact SongNetwork.held_received found' thread later
  | @reuse i c h file _ found thread late =>
    cases own
    have later := (inv.shut.ordered c (List.mem_of_getElem? found)).late h thread late
    rw [SongNetwork.held_received found thread later]
    exact SongNetwork.held_received (getElem?_set_found found _) rfl later
  | @player i call p answers moved =>
    cases own
    cases found : s.server.connections[i]? with
    | none => simp [SongNetwork.held, SongNetwork.played, found]
    | some c =>
      have found' : (s.played i call p).server.connections[i]? = some c := found
      cases thread : c.handler with
      | none => rw [SongNetwork.held_none found thread, SongNetwork.held_none found' thread]
      | some h =>
        by_cases place : h.pc = .receiving
        · rcases SongNetwork.session_player answers moved with step | cut
          · rw [SongNetwork.held_some found thread, SongNetwork.held_some found' thread,
              quiet found thread place fine step]
          · exact (cut.alone running found' thread).elim
        · rw [SongNetwork.held_received found thread place, SongNetwork.held_received found' thread place]

theorem SongHandlerMove.frame {songPaths : List String} {server server' : SongServerState}
    (move : SongHandlerMove songPaths server j c server') :
    server'.connections.length = server.connections.length ∧
      (∀ i, i ≠ j → server'.connections[i]? = server.connections[i]?) ∧
      (server'.main = server.main ∨ server'.main = server.main.signal) ∧ server'.stop = server.stop := by
  cases move with
  | call | closeSocket => exact ⟨List.length_set, fun i apart => List.getElem?_set_ne apart.symm, Or.inl rfl, rfl⟩
  | closeClient => exact ⟨List.length_set, fun i apart => List.getElem?_set_ne apart.symm, Or.inr rfl, rfl⟩

/-- What an action of a connection leaves alone; it may wake main. -/
theorem NetworkMove.frame (move : NetworkMove cfg s action t) (own : action.connection = some j) :
    t.server.connections.length = s.server.connections.length ∧
      (∀ i, i ≠ j → t.server.connections[i]? = s.server.connections[i]?) ∧
      (t.server.main = s.server.main ∨ t.server.main = s.server.main.signal) ∧ t.server.stop = s.server.stop := by
  cases move with
  | main | wakeup | interrupt | kill => cases own
  | handler _ _ moved =>
    cases own
    obtain ⟨c, -, moved⟩ := songHandlerStep_move moved
    exact moved.frame
  | closeSocket _ moved =>
    cases own
    obtain ⟨c, -, moved⟩ := songCloseSocket_move cfg.songPaths moved
    exact moved.frame
  | reuse =>
    cases own
    exact ⟨List.length_set, fun i apart => List.getElem?_set_ne apart.symm, Or.inl rfl, rfl⟩
  | player => exact ⟨rfl, fun _ _ => rfl, Or.inl rfl, rfl⟩

/-- Main still waits as it did in another state, with the same slots held. -/
structure SongNetwork.WaitsLike (cfg : NetworkConfig) (origin s : SongNetwork) : Prop where
  reach : (songNetwork cfg).Reach s
  main : s.server.main.waits = true
  length : s.server.connections.length = origin.server.connections.length
  held : ∀ i, s.held cfg i = origin.held cfg i

section Waiting
variable {origin : SongNetwork}

theorem SongNetwork.WaitsLike.heldSlots (like : SongNetwork.WaitsLike cfg origin s) :
    s.heldSlots cfg = origin.heldSlots cfg := by
  unfold SongNetwork.heldSlots
  rw [like.length, funext like.held]

theorem SongNetwork.WaitsLike.connection (like : SongNetwork.WaitsLike cfg origin s)
    (some_ : 1 ≤ cfg.maxConcurrentClients) (step : (songNetwork cfg).step s action = some t)
    (fine : action.faulty = false) (own : action.connection = some j) : SongNetwork.WaitsLike cfg origin t := by
  have move := networkStep_move step
  obtain ⟨length, others, main, -⟩ := move.frame own
  refine ⟨like.reach.next step, ?_, length.trans like.length, fun i => ?_⟩
  · rcases main with same | signal
    · rw [same, like.main]
    · rw [signal, AcceptPc.signal_eq AcceptPc.waits rfl, like.main]
  · rw [← like.held i]
    by_cases here : i = j
    · exact move.held_own some_ like.reach fine (AcceptPc.ne_exited like.main) (here ▸ own)
    · have apart : action.connection ≠ some i := fun same => here (Option.some.inj (same.symm.trans own))
      have session := move.session_other (network_inv some_ like.reach).slots apart
      rw [SongNetwork.held, SongNetwork.held, others i here, session]

theorem SongNetwork.occupies_of_held (held : s.held cfg i = true) :
    s.server.connections[i]?.any SongConnection.occupies = true := by
  obtain ⟨c, found, both⟩ := (Option.any_eq_true _ _).mp held
  exact (Option.any_eq_true _ _).mpr ⟨c, found, (Bool.and_eq_true_iff.mp both).1⟩

/-- A slot that is held is counted. -/
theorem SongNetwork.heldSlots_le (slots : SlotInv cfg.maxConcurrentClients s.server) :
    (s.heldSlots cfg : Int) ≤ s.server.liveHandlersCount := by
  rw [slots.live, ← countP_range_getElem?]
  exact Int.ofNat_le.mpr (List.countP_mono_left fun i _ held => SongNetwork.occupies_of_held held)

/-- Where all slots are held main does not come to accept another client. -/
theorem SongNetwork.WaitsLike.full (like : SongNetwork.WaitsLike cfg origin s)
    (some_ : 1 ≤ cfg.maxConcurrentClients) (full : cfg.maxConcurrentClients ≤ origin.heldSlots cfg)
    (step : (songNetwork cfg).step s action = some t) (fine : action.faulty = false) :
    SongNetwork.WaitsLike cfg origin t ∨ t.server.main.stops = true := by
  have reach := like.reach.next step
  have move := networkStep_move step
  cases own : action.connection with
  | some j => exact Or.inl (like.connection some_ step fine own)
  | none =>
    have slots := (network_inv some_ like.reach).slots
    have counted := SongNetwork.heldSlots_le slots
    rw [like.heldSlots] at counted
    have waits := like.main
    cases move with
    | handler | closeSocket | reuse | player => cases own
    | wakeup => exact Or.inl ⟨reach, rfl, like.length, like.held⟩
    | interrupt => exact Or.inl ⟨reach, waits, like.length, like.held⟩
    | kill => exact Or.inr rfl
    | main _ moved =>
      cases moved with
      | enterLoop => exact Or.inl ⟨reach, rfl, like.length, like.held⟩
      | leaveLoop => exact Or.inr rfl
      | waits => exact Or.inl ⟨reach, rfl, like.length, like.held⟩
      | proceeds _ room => omega
      | _ => simp_all [AcceptPc.waits]

/-- Main does not come back to its loop. -/
theorem NetworkMove.stops (move : NetworkMove cfg s action t) (stopped : s.server.main.stops = true) :
    t.server.main.stops = true := by
  cases own : action.connection with
  | some j =>
    obtain ⟨-, -, same | signal, -⟩ := move.frame own
    · rw [same, stopped]
    · rw [signal, AcceptPc.signal_eq AcceptPc.stops rfl, stopped]
  | none =>
    cases move with
    | handler | closeSocket | reuse | player => cases own
    | wakeup asleep =>
      rw [asleep] at stopped
      cases stopped
    | interrupt => exact stopped
    | kill => rfl
    | main _ moved =>
      cases moved with
      | closesServer | freesPaths | returns => rfl
      | waits here | proceeds here => rcases here with here | here <;> simp [here, AcceptPc.stops] at stopped
      | _ => simp_all [AcceptPc.stops]

theorem SongNetwork.never_accepts {schedule : List NetworkAction} (some_ : 1 ≤ cfg.maxConcurrentClients)
    (reach : (songNetwork cfg).Reach s) (waits : s.server.main.waits = true)
    (full : cfg.maxConcurrentClients ≤ s.heldSlots cfg) (run : (songNetwork cfg).exec s schedule = some t)
    (fine : ∀ action ∈ schedule, action.faulty = false) : t.server.main ≠ .accepting := by
  intro accepting
  have start : SongNetwork.WaitsLike cfg s s ∨ s.server.main.stops = true := Or.inl ⟨reach, waits, rfl, fun _ => rfl⟩
  have last := System.exec_keeps (I := fun t => SongNetwork.WaitsLike cfg s t ∨ t.server.main.stops = true) start
    (fun action member before after inv step => inv.elim (fun like => like.full some_ full step (fine action member))
      fun stopped => Or.inr ((networkStep_move step).stops stopped)) run
  rcases last with like | stopped
  · have waits := like.main
    rw [accepting] at waits
    cases waits
  · rw [accepting] at stopped
    cases stopped

end Waiting

/-- A call of a session as an action of the network. -/
def SessionAction.network (i : Nat) : SessionAction → NetworkAction
  | .player call => .player i call
  | .handler call => .handler i call
  | .closeSocket => .closeSocket i

/-- The network lets a client and its handler make every call that their session lets them make. -/
theorem SongNetwork.session_ready {b : SessionAction} {u : SongSession} (running : s.server.main ≠ .exited)
    (found : s.server.connections[i]? = some c) (thread : c.handler = some h)
    (move : SessionMove (cfg.session i) (s.session cfg i) b u) : (songNetwork cfg).step s (b.network i) ≠ none := by
  have seen : s.server.seenAt (cfg.stack i) i = (h, c.closed) := SongServerState.seenAt_of found thread
  cases move with
  | @player call p' answers move =>
    have answers' : s.answersPlayer i call = true := by
      cases move with
      | recvEnd =>
        simp only [SongSession.answersPlayer, SongNetwork.session, seen, Bool.and_eq_true] at answers
        simp [SongNetwork.answersPlayer, found, answers.1, answers.2]
      | @recv bytes _ nonempty =>
        cases bytes with
        | nil => exact absurd rfl nonempty
        | cons b rest => exact answers
      | _ => rfl
    have moved : playerStep (cfg.typed i) (cfg.command i) (s.players i) call = some p' := playerStep_iff.mpr move
    simp [SessionAction.network, songNetwork, networkStep, SongNetwork.play, answers', moved]
  | @handler call h' answers move =>
    have answers' : s.answersHandler cfg i call = true := by
      cases call with
      | fopen => simp [SongNetwork.answersHandler, answers]
      | _ => exact answers
    have moved : songStep cfg.songPaths h call = some h' := by
      have step := move.step
      rwa [show (s.session cfg i).handler = h by simp [SongNetwork.session, seen]] at step
    have possible : ∃ server, songHandlerStep cfg.songPaths s.server i call = some server := by
      simp only [songHandlerStep, found, thread, moved, Option.bind_eq_bind, Option.bind_some]
      cases call with
      | closeClient =>
        have closed : c.closed = true := by simpa [SongSession.answersHandler, SongNetwork.session, seen] using answers
        exact ⟨_, if_pos closed⟩
      | _ => exact ⟨_, rfl⟩
    obtain ⟨server, step⟩ := possible
    simp [SessionAction.network, songNetwork, networkStep, SongNetwork.handle, answers', songServerStep, running, step]
  | closeSocket closing open_ =>
    simp only [SongNetwork.session, seen] at closing open_
    simp [SessionAction.network, songNetwork, networkStep, SongNetwork.serve, songServerStep, running, songCloseSocket,
      found, thread, closing, open_]

/-- What a client types, the list of the songs and the memory behind the buffers of the handlers let every session come
to its end. -/
structure NetworkConfig.Sound (cfg : NetworkConfig) : Prop where
  clients : 1 ≤ cfg.maxConcurrentClients
  listed : cfg.songPaths.length = songCount
  typed : ∀ i, cfg.typed i ≠ []
  ends : ∀ i, 0 ∈ (cfg.stack i).drop bufferSize

/-- A slot is held for good where no call of its connection is possible that does not fail. -/
theorem SongNetwork.held_at_rest (sound : cfg.Sound) (reach : (songNetwork cfg).Reach s)
    (waits : s.server.main.waits = true) (going : s.server.stop = false) (found : s.server.connections[i]? = some c)
    (occupied : c.occupies = true) (rest : ∀ a : NetworkAction, a.faulty = false → a.own = true →
      a.connection = some i → (songNetwork cfg).step s a = none) :
    s.held cfg i = true := by
  have inv := network_inv sound.clients reach
  have running := AcceptPc.ne_exited waits
  have member := List.mem_of_getElem? found
  cases thread : c.handler with
  | none => rw [SongNetwork.held_none found thread, occupied]
  | some h =>
    have intime : c.late = false := by
      by_contra late
      cases (inv.shut.late c member (Bool.eq_true_of_not_eq_false late)).symm.trans going
    have session := network_session_inv sound.clients reach running found thread intime
    have view : (s.session cfg i).handler = h := congrArg Prod.fst (SongServerState.seenAt_of found thread)
    have unreturned : h.pc ≠ .returned := by
      have alive := (inv.slots.accounted c member).running_of_occupies occupied fun free => by
        cases free.symm.trans thread
      simpa [SongConnection.running, thread] using alive
    have stuck {b : SessionAction} {u : SongSession} (fine : b.faulty = false)
        (move : SessionMove (cfg.session i) (s.session cfg i) b u) : False := by
      refine SongNetwork.session_ready running found thread move (rest _ ?_ ?_ ?_)
      · cases b <;> exact fine
      · cases b <;> rfl
      · cases b <;> rfl
    rcases session.handler_goes sound.listed (sound.ends i) with returned | ⟨place, up, going⟩ | ⟨b, u, fine, move⟩
    · exact absurd (view ▸ returned) unreturned
    · have nothing : (s.session cfg i).player.sent = [] := by
        rw [← session.up, session.silent place, up, List.nil_append]
      have typed : (cfg.session i).typed ≠ [] := sound.typed i
      rcases player_goes (s := s.session cfg i) typed with ended | ⟨receiving, -⟩ | ⟨b, u, fine, move⟩
      · cases ended.symm.trans going
      · rw [SongNetwork.held_some found thread, occupied]
        simp [SongSession.silent, SessionConfig.keepsQuiet, place, nothing, receiving, PlayerPc.ended]
      · exact (stuck fine move).elim
    · exact (stuck fine move).elim

/-- The most calls that are still made on a connection. -/
def SongNetwork.leftAt (cfg : NetworkConfig) (s : SongNetwork) (i : Nat) : Nat :=
  (s.session cfg i).left (cfg.session i)

theorem network_leftAt_own (some_ : 1 ≤ cfg.maxConcurrentClients) (reach : (songNetwork cfg).Reach s)
    (going : s.server.stop = false) (step : (songNetwork cfg).step s action = some t)
    (own : action.connection = some i) : t.leftAt cfg i < s.leftAt cfg i := by
  have inv := network_inv some_ reach
  have move := networkStep_move step
  rcases move.session_own inv own with ⟨b, step⟩ | cut | late
  · rcases network_sessions some_ reach i with inside | ⟨u, -, cut | late⟩
    · exact (sessionStep_iff.mp step).left (SessionInv.reach inside)
    · exact absurd own (cut.idle move)
    · cases (inv.shut.intime going i).symm.trans late
  · rw [SongNetwork.leftAt, cut.session]
    simp only [SongNetwork.leftAt, SongSession.left, cut.receiving, PlayerPc.left]
    omega
  · have going' : t.server.stop = false := (move.frame own).2.2.2.trans going
    cases ((network_inv some_ (reach.next step)).shut.intime going' i).symm.trans late

/-- Every action of a connection lowers what is left. -/
theorem network_left {n : Nat} (some_ : 1 ≤ cfg.maxConcurrentClients) (reach : (songNetwork cfg).Reach s)
    (going : s.server.stop = false) (step : (songNetwork cfg).step s action = some t)
    (own : action.connection = some j) (inside : j < n) :
    ∑ i ∈ Finset.range n, t.leftAt cfg i < ∑ i ∈ Finset.range n, s.leftAt cfg i := by
  have fewer := network_leftAt_own some_ reach going step own
  refine Finset.sum_lt_sum (fun i _ => ?_) ⟨j, Finset.mem_range.mpr inside, fewer⟩
  by_cases here : i = j
  · exact here ▸ fewer.le
  · have apart : action.connection ≠ some i := fun same => here (Option.some.inj (same.symm.trans own))
    have slots := (network_inv some_ reach).slots
    rw [SongNetwork.leftAt, SongNetwork.leftAt, (networkStep_move step).session_other slots apart]

/-- With a free slot main goes on to accept a client. -/
theorem SongNetwork.accepts (waits : s.server.main.waits = true) (going : s.server.stop = false)
    (slots : SlotInv cfg.maxConcurrentClients s.server) (room : s.server.liveHandlersCount < cfg.maxConcurrentClients) :
    ∃ n, ((songNetwork cfg).exec s (List.replicate n (.main true))).map (fun t => t.server.main) = some .accepting := by
  have free : ¬cfg.maxConcurrentClients ≤ s.server.liveHandlersCount := by omega
  cases here : s.server.main with
  | loop =>
    exact ⟨3, by simp [System.exec, songNetwork, networkStep, serve, songServerStep, songMainStep, here, going, free]⟩
  | testing | signalled =>
    exact ⟨2, by simp [System.exec, songNetwork, networkStep, serve, songServerStep, songMainStep, here, free]⟩
  | asleep =>
    have holds := slots.main
    simp only [SongServerState.MainHolds, here] at holds
    exact absurd holds free
  | _ => simp [here, AcceptPc.waits] at waits

/-- A call on one of the first connections that does not fail. -/
def NetworkAction.serves (n : Nat) (action : NetworkAction) : Bool :=
  !action.faulty && action.own && action.connection.any (· < n)

/-- While main waits, the calls of the connections give all slots back that are not held for good. -/
theorem SongNetwork.frees (sound : cfg.Sound) (reach : (songNetwork cfg).Reach s) (waits : s.server.main.waits = true)
    (going : s.server.stop = false) :
    ∃ schedule t, (songNetwork cfg).exec s schedule = some t ∧
      (∀ action ∈ schedule, action.serves s.server.connections.length = true) ∧
      (SongNetwork.WaitsLike cfg s t ∧ t.server.stop = false) ∧ t.server.liveHandlersCount = s.heldSlots cfg := by
  have lowers (before : SongNetwork) (action : NetworkAction) (after : SongNetwork)
      (inv : SongNetwork.WaitsLike cfg s before ∧ before.server.stop = false)
      (serves : action.serves s.server.connections.length = true)
      (step : (songNetwork cfg).step before action = some after) :
      (SongNetwork.WaitsLike cfg s after ∧ after.server.stop = false) ∧
        ∑ i ∈ Finset.range s.server.connections.length, after.leftAt cfg i <
          ∑ i ∈ Finset.range s.server.connections.length, before.leftAt cfg i := by
    obtain ⟨like, going⟩ := inv
    simp only [NetworkAction.serves, Bool.and_eq_true, Bool.not_eq_true', Option.any_eq_true,
      decide_eq_true_eq] at serves
    obtain ⟨⟨fine, -⟩, j, own, inside⟩ := serves
    have move := networkStep_move step
    exact ⟨⟨like.connection sound.clients step fine own, (move.frame own).2.2.2.trans going⟩,
      network_left sound.clients like.reach going step own inside⟩
  obtain ⟨schedule, t, run, kinds, ⟨like, going'⟩, rest⟩ :=
    System.rests_via _ _ ⟨⟨reach, waits, rfl, fun _ => rfl⟩, going⟩ lowers
  refine ⟨schedule, t, run, kinds, ⟨like, going'⟩, ?_⟩
  have slots := (network_inv sound.clients like.reach).slots
  rw [slots.live, ← like.heldSlots, SongNetwork.heldSlots, ← countP_range_getElem?]
  refine congrArg Nat.cast (List.countP_congr fun i member => ⟨fun occupied => ?_, SongNetwork.occupies_of_held⟩)
  obtain ⟨c, found, occupied⟩ := (Option.any_eq_true _ _).mp occupied
  refine SongNetwork.held_at_rest sound like.reach like.main going' found occupied fun a fine own connection => ?_
  have inside : i < s.server.connections.length := like.length ▸ List.mem_range.mp member
  exact rest a (by simp [NetworkAction.serves, fine, own, connection, inside])

theorem NetworkAction.own_of_serves {n : Nat} (serves : action.serves n = true) :
    action.own = true ∧ action.faulty = false := by
  simp only [NetworkAction.serves, Bool.and_eq_true, Bool.not_eq_true'] at serves
  exact ⟨serves.1.2, serves.1.1⟩

/-- When main is about to test the number of handlers, it can go on to accept a client without an error anywhere exactly
if fewer slots than there are are held for good: by clients that send nothing, since their request is empty or their
`send` has failed, and by threads that could not be created. Otherwise it never does again, as long as no call of a
connection fails. -/
theorem song_network_serves (sound : cfg.Sound) (reach : (songNetwork cfg).Reach s)
    (waits : s.server.main.waits = true) (going : s.server.stop = false) :
    (s.heldSlots cfg < cfg.maxConcurrentClients → ∃ schedule t, (songNetwork cfg).exec s schedule = some t ∧
        (∀ action ∈ schedule, action.own = true ∧ action.faulty = false) ∧ t.server.main = .accepting) ∧
      (cfg.maxConcurrentClients ≤ s.heldSlots cfg → ∀ schedule t, (songNetwork cfg).exec s schedule = some t →
        (∀ action ∈ schedule, action.faulty = false) → t.server.main ≠ .accepting) := by
  refine ⟨fun room => ?_, fun full schedule t run fine => ?_⟩
  · obtain ⟨schedule, t, run, kinds, ⟨like, going'⟩, live⟩ := SongNetwork.frees sound reach waits going
    have slots := (network_inv sound.clients like.reach).slots
    obtain ⟨n, accepts⟩ := SongNetwork.accepts like.main going' slots (live ▸ room)
    obtain ⟨u, more, accepting⟩ := Option.map_eq_some_iff.mp accepts
    refine ⟨schedule ++ List.replicate n (.main true), u, (System.exec_append run).trans more, ?_, accepting⟩
    intro action member
    rcases List.mem_append.mp member with first | last
    · exact NetworkAction.own_of_serves (kinds action first)
    · rw [List.eq_of_mem_replicate last]
      exact ⟨rfl, rfl⟩
  · exact SongNetwork.never_accepts sound.clients reach waits full run fine

/-- A client whose `send` fails, which it does not look at. -/
def unsentRequest (i : Nat) : List NetworkAction := [.player i .fgets, .player i (.send none), .player i (.popen true)]

set_option maxRecDepth 8000 in
/-- One of two slots is held for good, and then both. -/
theorem unsentRequest_holds :
    ∃ s t, (songNetwork secondSongNetwork).exec .start (List.replicate 12 (.main true) ++ unsentRequest 0) = some s ∧
      (songNetwork secondSongNetwork).exec s (List.replicate 7 (.main true) ++ unsentRequest 1) = some t ∧
      s.server.main = .loop ∧ s.server.stop = false ∧ s.heldSlots secondSongNetwork = 1 ∧
      t.server.main = .loop ∧ t.server.stop = false ∧ t.heldSlots secondSongNetwork = 2 :=
  ⟨_, _, rfl, rfl, rfl, rfl, rfl, rfl, rfl, rfl⟩

theorem secondSongNetwork_sound : secondSongNetwork.Sound where
  clients := by decide
  listed := rfl
  typed _ := by simp [secondSongNetwork, secondSongConfig, ascii]
  ends _ := by simp [secondSongNetwork, secondSongConfig]

theorem song_network_serves_unsent :
    ∃ s t, (songNetwork secondSongNetwork).Reach s ∧ (songNetwork secondSongNetwork).Reach t ∧
      (∃ schedule u, (songNetwork secondSongNetwork).exec s schedule = some u ∧ u.server.main = .accepting) ∧
      ∀ schedule u, (songNetwork secondSongNetwork).exec t schedule = some u →
        (∀ action ∈ schedule, action.faulty = false) → u.server.main ≠ .accepting := by
  obtain ⟨s, t, first, second, place, going, one, place', going', two⟩ := unsentRequest_holds
  have reach := System.Reach.exec (.start rfl) first
  have reach' := reach.exec second
  have open_ := song_network_serves secondSongNetwork_sound reach (by rw [place]; rfl) going
  have full := song_network_serves secondSongNetwork_sound reach' (by rw [place']; rfl) going'
  obtain ⟨schedule, u, run, -, accepting⟩ := open_.1 (by rw [one]; decide)
  exact ⟨s, t, reach, reach', ⟨schedule, u, run, accepting⟩, full.2 (by rw [two]; decide)⟩

end PCProject
