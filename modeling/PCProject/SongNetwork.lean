import PCProject.SongSession
import PCProject.SongShutDown

namespace PCProject

/-- The song server with all its clients. The clients are numbered as they are accepted; until then the connection
waits in the backlog. The last two fields are history, as in a session. -/
structure SongNetwork where
  server : SongServerState
  players : Nat → SongPlayer
  uplink : Nat → Bytes
  downlink : Nat → Bytes
  asked : Nat → Bytes
  calls : Nat → List SongCall

/-- What the network is given: for each client what a session is given. -/
structure NetworkConfig where
  maxConcurrentClients : Int
  songPaths : List String
  files : String → Option Bytes
  typed : Nat → Bytes
  command : Nat → Bytes
  stack : Nat → Bytes

def NetworkConfig.session (cfg : NetworkConfig) (i : Nat) : SessionConfig where
  songPaths := cfg.songPaths
  files := cfg.files
  typed := cfg.typed i
  command := cfg.command i
  stack := cfg.stack i

/-- A step of the server, or a system call of a client. With `kill` the process of the server ends early, as SIGPIPE
ends it when a handler sends to a client that has gone. -/
inductive NetworkAction
  | main (success : Bool)
  | wakeup
  | interrupt
  | kill
  | handler (i : Nat) (call : SongCall)
  | closeSocket (i : Nat)
  | reuse (i : Nat) (file : FileStream)
  | player (i : Nat) (call : PlayerCall)

def SongNetwork.start : SongNetwork where
  server := .start
  players _ := .start
  uplink _ := []
  downlink _ := []
  asked _ := []
  calls _ := []

/-- A handler as its session knows it, and whether it has closed its socket. -/
def SongConnection.seen (stack : Bytes) (c : SongConnection) : SongHandler × Bool :=
  (c.handler.getD (.start stack), c.closed && c.handler.isSome)

def SongServerState.seenAt (stack : Bytes) (s : SongServerState) (i : Nat) : SongHandler × Bool :=
  s.connections[i]?.elim (.start stack, false) (SongConnection.seen stack)

/-- The session of a client, before and after it is accepted. -/
def SongNetwork.session (cfg : NetworkConfig) (s : SongNetwork) (i : Nat) : SongSession where
  player := s.players i
  handler := (s.server.seenAt (cfg.stack i) i).1
  closed := (s.server.seenAt (cfg.stack i) i).2
  uplink := s.uplink i
  downlink := s.downlink i
  asked := s.asked i
  calls := s.calls i

def SongServerState.acceptedBy (s : SongServerState) (i : Nat) : Bytes :=
  (s.connections[i]?.bind SongConnection.handler).elim [] SongHandler.accepted

/-- The handler of the connection has read the paths when `server_socket` was closed. -/
def SongServerState.lateAt (s : SongServerState) (i : Nat) : Bool := s.connections[i]?.any SongConnection.late

/-- What the thread that main is about to create finds on its stack. -/
def SongNetwork.newStack (cfg : NetworkConfig) (s : SongNetwork) : Bytes :=
  match s.server.main with
  | .creating i => cfg.stack i
  | _ => []

/-- What the network can answer a client. It sees the end of the stream when its socket is closed at the other end, by
the handler or by main or with the process. -/
def SongNetwork.answersPlayer (s : SongNetwork) (i : Nat) : PlayerCall → Bool
  | .recv (some []) =>
    (s.downlink i).isEmpty && (s.server.connections[i]?.any SongConnection.closed || s.server.main = .exited)
  | .recv (some bytes) => bytes.isPrefixOf (s.downlink i)
  | _ => true

/-- What the network and the file system can answer a handler. Once the paths are freed `fopen` is given whatever is in
the memory, and any file may open; the log keeps the path that was there. -/
def SongNetwork.answersHandler (cfg : NetworkConfig) (s : SongNetwork) (i : Nat) : SongCall → Bool
  | .fopen content => s.server.pathsFreed || (s.session cfg i).answersHandler (cfg.session i) (.fopen content)
  | call => (s.session cfg i).answersHandler (cfg.session i) call

def SongNetwork.serve (cfg : NetworkConfig) (s : SongNetwork) (action : SongAction) : Option SongNetwork :=
  (songServerStep cfg.maxConcurrentClients cfg.songPaths s.server action).map fun server => { s with server := server }

/-- The network when a handler has made a system call. -/
def SongNetwork.called (s : SongNetwork) (i : Nat) (call : SongCall) (server : SongServerState) : SongNetwork where
  server := server
  players := s.players
  uplink := Function.update s.uplink i ((s.uplink i).drop call.taken.length)
  downlink := Function.update s.downlink i
    (s.downlink i ++ (server.acceptedBy i).drop (s.server.acceptedBy i).length)
  asked := Function.update s.asked i (s.asked i ++ call.taken)
  calls := Function.update s.calls i (s.calls i ++ [call])

/-- The network when a client has made a system call. -/
def SongNetwork.played (s : SongNetwork) (i : Nat) (call : PlayerCall) (player : SongPlayer) : SongNetwork :=
  { s with
    players := Function.update s.players i player
    uplink := Function.update s.uplink i (s.uplink i ++ player.sent.drop (s.players i).sent.length)
    downlink := Function.update s.downlink i ((s.downlink i).drop call.taken.length) }

def SongNetwork.handle (cfg : NetworkConfig) (s : SongNetwork) (i : Nat) (call : SongCall) : Option SongNetwork :=
  if s.answersHandler cfg i call then
    (songServerStep cfg.maxConcurrentClients cfg.songPaths s.server (.handler i call)).map (s.called i call)
  else none

def SongNetwork.play (cfg : NetworkConfig) (s : SongNetwork) (i : Nat) (call : PlayerCall) : Option SongNetwork :=
  if s.answersPlayer i call then
    (playerStep (cfg.typed i) (cfg.command i) (s.players i) call).map (s.played i call)
  else none

def networkStep (cfg : NetworkConfig) (s : SongNetwork) : NetworkAction → Option SongNetwork
  | .main success => s.serve cfg (.main success (s.newStack cfg))
  | .wakeup => s.serve cfg .wakeup
  | .interrupt => s.serve cfg .interrupt
  | .kill => some { s with server := { s.server with main := .exited } }
  | .handler i call => s.handle cfg i call
  | .closeSocket i => s.serve cfg (.closeSocket i)
  | .reuse i file => s.serve cfg (.reuse i file)
  | .player i call => s.play cfg i call

def songNetwork (cfg : NetworkConfig) : System SongNetwork NetworkAction where
  init s := s = .start
  step := networkStep cfg

section Server
variable {maxConcurrentClients : Int} {songPaths : List String} {s s' : SongServerState} {i j : Nat} {stack : Bytes}
  {c c' : SongConnection}

/-- Main has accepted the connection and closed it without a handler. -/
def SongServerState.Refused (s : SongServerState) (i : Nat) : Prop :=
  ∃ c, s.connections[i]? = some c ∧ c.handler = none ∧ c.closed = true

theorem SongServerState.seenAt_set (found : s.connections[j]? = some c)
    (connections : s'.connections = s.connections.set j c')
    (same : i = j → c'.seen stack = c.seen stack) : s'.seenAt stack i = s.seenAt stack i := by
  unfold seenAt
  rw [connections]
  by_cases here : i = j
  · subst here
    rw [getElem?_set_found found, found]
    exact same rfl
  · rw [List.getElem?_set_ne (Ne.symm here)]

/-- No step of main changes what a session sees of its handler. -/
theorem SongMainMove.seenAt {success : Bool} {new : Bytes} (slots : SlotInv maxConcurrentClients s)
    (own : s.main = .creating i → new = stack) (move : SongMainMove maxConcurrentClients s success new s') :
    s'.seenAt stack i = s.seenAt stack i := by
  have holds := slots.main
  unfold SongServerState.MainHolds at holds
  cases move with
  | accepts =>
    unfold SongServerState.seenAt
    rcases Nat.lt_trichotomy i s.connections.length with before | rfl | after
    · rw [List.getElem?_append_left before]
    · rw [List.getElem?_concat_length, List.getElem?_eq_none (Nat.le_refl _)]
      rfl
    · rw [List.getElem?_eq_none (by simp; omega), List.getElem?_eq_none (by omega)]
  | refuses here _ found =>
    simp only [here] at holds
    cases found.symm.trans holds.2
    exact SongServerState.seenAt_set found rfl fun _ => rfl
  | counts here found =>
    simp only [here] at holds
    cases found.symm.trans holds.2
    exact SongServerState.seenAt_set found rfl fun _ => rfl
  | creates here found =>
    simp only [here] at holds
    cases found.symm.trans holds
    refine SongServerState.seenAt_set found rfl fun same => ?_
    subst same
    rw [own here]
    rfl
  | _ => rfl

theorem SongServerState.lateAt_set (found : s.connections[j]? = some c)
    (connections : s'.connections = s.connections.set j c') (kept : c.late = true → c'.late = true)
    (late : s.lateAt i = true) : s'.lateAt i = true := by
  unfold lateAt at late ⊢
  rw [connections]
  by_cases here : i = j
  · subst here
    rw [found] at late
    rw [getElem?_set_found found]
    exact kept late
  · rwa [List.getElem?_set_ne (Ne.symm here)]

/-- Before a stop request no handler is late. -/
theorem ShutDownInv.intime (shut : ShutDownInv s) (going : s.stop = false) (i : Nat) : s.lateAt i = false := by
  by_contra late
  obtain ⟨c, found, late⟩ := (Option.any_eq_true _ _).mp (Bool.eq_true_of_not_eq_false late)
  cases (shut.late c (List.mem_of_getElem? found) late).symm.trans going

/-- What has been read from the paths is not unread. -/
theorem SongServerMove.lateAt {action : SongAction}
    (move : SongServerMove maxConcurrentClients songPaths s action s') (late : s.lateAt i = true) :
    s'.lateAt i = true := by
  have handler {j : Nat} {c : SongConnection} (found : s.connections[j]? = some c)
      (moved : SongHandlerMove songPaths s j c s') : s'.lateAt i = true := by
    cases moved with
    | call => exact SongServerState.lateAt_set found rfl (fun late => by simp [late]) late
    | closeSocket | closeClient => exact SongServerState.lateAt_set found rfl id late
  cases move with
  | main moved =>
    cases moved with
    | accepts =>
      obtain ⟨c, found, late⟩ := (Option.any_eq_true _ _).mp late
      have inside := (List.getElem?_eq_some_iff.mp found).1
      exact (Option.any_eq_true _ _).mpr ⟨c, by rw [List.getElem?_append_left inside, found], late⟩
    | refuses _ _ found | counts _ found | creates _ found => exact SongServerState.lateAt_set found rfl id late
    | _ => exact late
  | wakeup | interrupt => exact late
  | handler found moved | closeSocket found moved => exact handler found moved
  | reuse found => exact SongServerState.lateAt_set found rfl id late

theorem SongServerState.Refused.set (refused : s.Refused i) (connections : s'.connections = s.connections.set j c')
    (other : i ≠ j) : s'.Refused i := by
  obtain ⟨c, found, rest⟩ := refused
  exact ⟨c, by rw [connections, List.getElem?_set_ne other.symm, found], rest⟩

/-- A connection that has been refused stays as it is. -/
theorem SongServerState.Refused.move {action : SongAction} (refused : s.Refused i)
    (slots : SlotInv maxConcurrentClients s)
    (move : SongServerMove maxConcurrentClients songPaths s action s') : s'.Refused i := by
  obtain ⟨c, found, free, closed⟩ := id refused
  have notOpen {j : Nat} {d : SongConnection} (here : s.connections[j]? = some d) (open_ : d.closed = false) :
      i ≠ j := by
    rintro rfl
    cases found.symm.trans here
    rw [closed] at open_
    cases open_
  have other {j : Nat} {d : SongConnection} {h : SongHandler} (here : s.connections[j]? = some d)
      (thread : d.handler = some h) : i ≠ j := by
    rintro rfl
    cases found.symm.trans here
    rw [free] at thread
    cases thread
  have handler {j : Nat} {d : SongConnection} (here : s.connections[j]? = some d)
      (moved : SongHandlerMove songPaths s j d s') : s'.Refused i := by
    cases moved with
    | call thread => exact refused.set rfl (other here thread)
    | closeSocket thread => exact refused.set rfl (other here thread)
    | closeClient thread => exact refused.set rfl (other here thread)
  have holds := slots.main
  unfold SongServerState.MainHolds at holds
  cases move with
  | main moved =>
    cases moved with
    | accepts =>
      have inside := (List.getElem?_eq_some_iff.mp found).1
      exact ⟨c, by rw [List.getElem?_append_left inside, found], free, closed⟩
    | refuses here _ at_ =>
      simp only [here] at holds
      exact refused.set rfl (notOpen holds.2 rfl)
    | counts here =>
      simp only [here] at holds
      exact refused.set rfl (notOpen holds.2 rfl)
    | creates here =>
      simp only [here] at holds
      exact refused.set rfl (notOpen holds rfl)
    | _ => exact refused
  | wakeup => exact refused
  | handler here moved => exact handler here moved
  | closeSocket here moved => exact handler here moved
  | interrupt => exact refused
  | reuse here thread => exact refused.set rfl (other here thread)

/-- A system call of a handler, apart from what it does to the rest of the server. -/
theorem songHandlerStep_view {call : SongCall} (step : songHandlerStep songPaths s i call = some s') :
    ∃ c h h' c', s.connections[i]? = some c ∧ c.handler = some h ∧ songStep songPaths h call = some h' ∧
      s'.connections = s.connections.set i c' ∧ c'.handler = some h' ∧ c'.closed = c.closed ∧
      c'.late = (c.late || (s.socket ≠ .opened && h.readsPaths call)) ∧
      (call = .closeClient → c.closed = true ∧ c'.occupies = false) ∧
      (call ≠ .closeClient → c'.occupies = c.occupies) := by
  obtain ⟨c, found, step⟩ := Option.bind_eq_some_iff.mp step
  obtain ⟨h, thread, step⟩ := Option.bind_eq_some_iff.mp step
  obtain ⟨h', moved, step⟩ := Option.bind_eq_some_iff.mp step
  refine ⟨c, h, h', ?_⟩
  cases call with
  | closeClient =>
    simp only at step
    split at step
    · rename_i closed
      cases step
      refine ⟨_, found, thread, moved, rfl, rfl, rfl, by simp [SongHandler.readsPaths], fun _ => ⟨closed, ?_⟩,
        fun other => absurd rfl other⟩
      simp [SongConnection.occupies]
    · cases step
  | _ =>
    cases step
    refine ⟨_, found, thread, moved, rfl, rfl, rfl, rfl, fun same => ?_, fun _ => rfl⟩
    cases same

theorem songCloseSocket_view (step : songCloseSocket s i = some s') :
    ∃ c h, s.connections[i]? = some c ∧ c.handler = some h ∧ h.pc = .closing ∧ c.closed = false ∧
      s'.connections = s.connections.set i { c with closed := true } := by
  obtain ⟨c, found, step⟩ := Option.bind_eq_some_iff.mp step
  obtain ⟨h, thread, step⟩ := Option.bind_eq_some_iff.mp step
  split at step
  · rename_i here
    cases step
    exact ⟨c, h, found, thread, here.1, by simpa using here.2, rfl⟩
  · cases step

theorem songServerStep_running {call : SongAction}
    (step : songServerStep maxConcurrentClients songPaths s call = some s') : s.main ≠ .exited := by
  intro exited
  unfold songServerStep at step
  rw [if_pos exited] at step
  cases step

end Server

/-- The connection that an action belongs to. -/
def NetworkAction.connection : NetworkAction → Option Nat
  | .handler i _ | .closeSocket i | .reuse i _ | .player i _ => some i
  | _ => none

variable {cfg : NetworkConfig} {s t : SongNetwork} {action : NetworkAction} {i : Nat}

/-- What one action can do. -/
inductive NetworkMove (cfg : NetworkConfig) (s : SongNetwork) : NetworkAction → SongNetwork → Prop
  | main {success server} : s.server.main ≠ .exited →
      SongMainMove cfg.maxConcurrentClients s.server success (s.newStack cfg) server →
      NetworkMove cfg s (.main success) { s with server := server }
  | wakeup : s.server.main = .asleep →
      NetworkMove cfg s .wakeup { s with server := { s.server with main := .signalled } }
  | interrupt : s.server.main ≠ .exited →
      NetworkMove cfg s .interrupt { s with server := { s.server with stop := true, socket := s.server.socket.close } }
  | kill : NetworkMove cfg s .kill { s with server := { s.server with main := .exited } }
  | handler {i call server} : s.server.main ≠ .exited → s.answersHandler cfg i call = true →
      songHandlerStep cfg.songPaths s.server i call = some server →
      NetworkMove cfg s (.handler i call) (s.called i call server)
  | closeSocket {i server} : s.server.main ≠ .exited →
      songCloseSocket s.server i = some server →
      NetworkMove cfg s (.closeSocket i) { s with server := server }
  | reuse {i c h file} : s.server.main ≠ .exited → s.server.connections[i]? = some c → c.handler = some h →
      c.late = true → s.server.socket = .closedAgain →
      NetworkMove cfg s (.reuse i file) { s with
        server := s.server.setConnection i { c with handler := some { h with fd := some file } } }
  | player {i call p} : s.answersPlayer i call = true → PlayerMove (cfg.typed i) (cfg.command i) (s.players i) call p →
      NetworkMove cfg s (.player i call) (s.played i call p)

theorem networkStep_move (step : networkStep cfg s action = some t) : NetworkMove cfg s action t := by
  cases action with
  | main success =>
    obtain ⟨server, moved, rfl⟩ := Option.map_eq_some_iff.mp step
    cases songServerStep_move moved with
    | main main => exact .main (songServerStep_running moved) main
  | wakeup =>
    obtain ⟨server, moved, rfl⟩ := Option.map_eq_some_iff.mp step
    cases songServerStep_move moved with
    | wakeup asleep => exact .wakeup asleep
  | interrupt =>
    obtain ⟨server, moved, rfl⟩ := Option.map_eq_some_iff.mp step
    cases songServerStep_move moved with
    | interrupt => exact .interrupt (songServerStep_running moved)
  | kill =>
    cases step
    exact .kill
  | handler j call =>
    simp only [networkStep, SongNetwork.handle] at step
    split at step
    · rename_i answers
      obtain ⟨server, moved, rfl⟩ := Option.map_eq_some_iff.mp step
      have running := songServerStep_running moved
      rw [songServerStep, if_neg running] at moved
      exact .handler running answers moved
    · cases step
  | closeSocket j =>
    obtain ⟨server, moved, rfl⟩ := Option.map_eq_some_iff.mp step
    have running := songServerStep_running moved
    rw [songServerStep, if_neg running] at moved
    exact .closeSocket running moved
  | reuse j file =>
    obtain ⟨server, moved, rfl⟩ := Option.map_eq_some_iff.mp step
    cases songServerStep_move moved with
    | reuse found thread late again => exact .reuse (songServerStep_running moved) found thread late again
  | player j call =>
    simp only [networkStep, SongNetwork.play] at step
    split at step
    · obtain ⟨player, moved, rfl⟩ := Option.map_eq_some_iff.mp step
      exact .player (by assumption) (playerStep_iff.mp moved)
    · cases step

/-- The process of the server has ended in a state of the server. -/
def SongNetwork.EndedIn (s : SongNetwork) (u : SongServerState) : Prop := s.server = { u with main := .exited }

/-- What an action does to the server: nothing, or a step of the server, or its end. -/
theorem networkStep_server (step : networkStep cfg s action = some t) :
    t.server = s.server ∨
      (∃ call, songServerStep cfg.maxConcurrentClients cfg.songPaths s.server call = some t.server) ∨
      t.EndedIn s.server := by
  have served {call : SongAction} (step : s.serve cfg call = some t) :
      ∃ call, songServerStep cfg.maxConcurrentClients cfg.songPaths s.server call = some t.server := by
    obtain ⟨server, moved, rfl⟩ := Option.map_eq_some_iff.mp step
    exact ⟨call, moved⟩
  cases action with
  | main | wakeup | interrupt | closeSocket | reuse => exact Or.inr (Or.inl (served step))
  | kill =>
    cases step
    exact Or.inr (Or.inr rfl)
  | handler j call =>
    simp only [networkStep, SongNetwork.handle] at step
    split at step
    · obtain ⟨server, moved, rfl⟩ := Option.map_eq_some_iff.mp step
      exact Or.inr (Or.inl ⟨_, moved⟩)
    · cases step
  | player j call =>
    simp only [networkStep, SongNetwork.play] at step
    split at step
    · obtain ⟨player, moved, rfl⟩ := Option.map_eq_some_iff.mp step
      exact Or.inl rfl
    · cases step

/-- What is seen of the server is a state of the server alone, or its process has ended in one. -/
theorem network_server (reach : (songNetwork cfg).Reach s) :
    (songServerSystem cfg.maxConcurrentClients cfg.songPaths).Reach s.server ∨
      ∃ u, (songServerSystem cfg.maxConcurrentClients cfg.songPaths).Reach u ∧ s.EndedIn u := by
  refine reach.projectUntil SongNetwork.server (fun s initial => ?_)
    (fun s action t _ _ step => networkStep_server step) fun s action t u _ ended step => ?_
  · rw [show s = .start from initial]
    rfl
  · rcases networkStep_server step with same | ⟨call, moved⟩ | exits
    · exact same.trans ended
    · exact absurd (by rw [ended]) (songServerStep_running moved)
    · unfold SongNetwork.EndedIn at exits ended ⊢
      rw [exits, ended]

/-- What every state of the network has of its server, also after an early end. -/
structure NetworkInv (cfg : NetworkConfig) (s : SongNetwork) : Prop where
  slots : SlotInv cfg.maxConcurrentClients s.server
  shut : ShutDownInv s.server

theorem network_inv (some_ : 1 ≤ cfg.maxConcurrentClients) (reach : (songNetwork cfg).Reach s) : NetworkInv cfg s := by
  rcases network_server reach with inside | ⟨u, inside, ended⟩
  · exact ⟨song_slots some_ inside, song_shutDown some_ inside⟩
  · have slots := song_slots some_ inside
    have shut := song_shutDown some_ inside
    unfold SongNetwork.EndedIn at ended
    constructor
    · rw [ended]
      exact ⟨slots.accounted, trivial, slots.live, slots.bound⟩
    · rw [ended]
      exact shut.moveMain rfl (by simp) (by simp) fun _ => rfl

/-- An action only changes the session of its own connection. -/
theorem NetworkMove.session_other (move : NetworkMove cfg s action t)
    (slots : SlotInv cfg.maxConcurrentClients s.server) (other : action.connection ≠ some i) :
    t.session cfg i = s.session cfg i := by
  have unseen {j : Nat} {server : SongServerState} {c c' : SongConnection} (apart : i ≠ j)
      (found : s.server.connections[j]? = some c) (connections : server.connections = s.server.connections.set j c') :
      server.seenAt (cfg.stack i) i = s.server.seenAt (cfg.stack i) i :=
    SongServerState.seenAt_set found connections fun here => absurd here apart
  cases move with
  | @main success server _ moved =>
    have same : server.seenAt (cfg.stack i) i = s.server.seenAt (cfg.stack i) i :=
      moved.seenAt slots fun here => by rw [SongNetwork.newStack, here]
    rw [SongNetwork.session, SongNetwork.session, same]
  | wakeup | interrupt | kill => rfl
  | @handler j call server running _ moved =>
    have apart : i ≠ j := fun same => other (congrArg some same.symm)
    obtain ⟨c, h, h', c', found, -, -, connections, -⟩ := songHandlerStep_view moved
    simp only [SongNetwork.session, SongNetwork.called, unseen apart found connections, Function.update_of_ne apart]
  | @closeSocket j server running moved =>
    have apart : i ≠ j := fun same => other (congrArg some same.symm)
    obtain ⟨c, h, found, -, -, -, connections⟩ := songCloseSocket_view moved
    simp only [SongNetwork.session, unseen apart found connections]
  | @reuse j c h file _ found =>
    have apart : i ≠ j := fun same => other (congrArg some same.symm)
    have same : (s.server.setConnection j { c with handler := some { h with fd := some file } }).seenAt (cfg.stack i)
        i = s.server.seenAt (cfg.stack i) i := unseen apart found rfl
    simp only [SongNetwork.session, same]
  | @player j call p =>
    have apart : i ≠ j := fun same => other (congrArg some same.symm)
    simp only [SongNetwork.session, SongNetwork.played, Function.update_of_ne apart]

/-- A session is over for its client without its handler: the client is at the end of the stream. -/
structure SongNetwork.CutOff (cfg : NetworkConfig) (i : Nat) (s : SongNetwork) (u : SongSession) : Prop where
  ended : s.server.main = .exited ∨ s.server.Refused i
  receiving : u.player.pc = .receiving
  drained : u.downlink = []
  session : s.session cfg i = { u with player := { u.player with pc := .finished } }

section Seen
variable {server server' : SongServerState} {stack : Bytes} {c : SongConnection} {h : SongHandler}

theorem SongServerState.seenAt_of (found : server.connections[i]? = some c) (thread : c.handler = some h) :
    server.seenAt stack i = (h, c.closed) := by
  simp [seenAt, found, SongConnection.seen, thread]

theorem SongServerState.acceptedBy_of (found : server.connections[i]? = some c) (thread : c.handler = some h) :
    server.acceptedBy i = h.accepted := by
  rw [acceptedBy, found, Option.bind_some, thread]
  rfl

theorem SongServerState.acceptedBy_eq (server : SongServerState) (stack : Bytes) (i : Nat) :
    server.acceptedBy i = (server.seenAt stack i).1.accepted := by
  unfold acceptedBy seenAt
  cases server.connections[i]? with
  | none => rfl
  | some c =>
    simp only [Option.bind_some, Option.elim_some, SongConnection.seen]
    cases c.handler <;> rfl

end Seen

/-- What the network answers a handler that is not late its session answers, too. -/
theorem ShutDownInv.answers {call : SongCall} {h h' : SongHandler} (shut : ShutDownInv s.server)
    (answers : s.answersHandler cfg i call = true) (moved : songStep cfg.songPaths h call = some h')
    (intime : (s.server.socket ≠ .opened && h.readsPaths call) = false) :
    (s.session cfg i).answersHandler (cfg.session i) call = true := by
  cases call with
  | fopen content =>
    cases songStep_effect moved with
    | openFailed => rfl
    | opened place =>
      have opened : s.server.socket = .opened := by simpa [SongHandler.readsPaths, place] using intime
      have kept : s.server.pathsFreed = false := by
        by_contra freed
        exact (shut.freed (Bool.eq_true_of_not_eq_false freed)).1 opened
      simpa [SongNetwork.answersHandler, kept] using answers
  | _ => exact answers

/-- A system call of a handler is a call of its session. -/
theorem SongNetwork.session_handler {call : SongCall} {server : SongServerState}
    (answers : (s.session cfg i).answersHandler (cfg.session i) call = true)
    (step : songHandlerStep cfg.songPaths s.server i call = some server) :
    sessionStep (cfg.session i) (s.session cfg i) (.handler call) = some ((s.called i call server).session cfg i) := by
  obtain ⟨c, h, h', c', found, thread, moved, connections, thread', closed', -⟩ := songHandlerStep_view step
  have found' : server.connections[i]? = some c' := by
    rw [connections, getElem?_set_found found]
  have possible : songStep (cfg.session i).songPaths h call = some h' := moved
  rw [sessionStep, if_pos answers]
  simp only [session, called, SongServerState.seenAt_of found thread, SongServerState.seenAt_of found' thread', closed',
    SongServerState.acceptedBy_of found thread, SongServerState.acceptedBy_of found' thread', Function.update_self,
    possible, Option.map_some]

theorem SongNetwork.session_closeSocket {server : SongServerState} (step : songCloseSocket s.server i = some server) :
    sessionStep (cfg.session i) (s.session cfg i) .closeSocket =
      some (SongNetwork.session cfg { s with server := server } i) := by
  obtain ⟨c, h, found, thread, closing, open_, connections⟩ := songCloseSocket_view step
  have found' : server.connections[i]? = some { c with closed := true } := by
    rw [connections, getElem?_set_found found]
  have seen : s.server.seenAt (cfg.stack i) i = (h, c.closed) := SongServerState.seenAt_of found thread
  have seen' : server.seenAt (cfg.stack i) i = (h, true) := SongServerState.seenAt_of found' thread
  simp [session, seen, seen', sessionStep, closing, open_]

/-- A system call of a client is a call of its session, unless it finds the end of the stream without its handler. -/
theorem SongNetwork.session_player {call : PlayerCall} {p : SongPlayer} (answers : s.answersPlayer i call = true)
    (move : PlayerMove (cfg.typed i) (cfg.command i) (s.players i) call p) :
    sessionStep (cfg.session i) (s.session cfg i) (.player call) = some ((s.played i call p).session cfg i) ∨
      (s.played i call p).CutOff cfg i (s.session cfg i) := by
  have step : playerStep (cfg.session i).typed (cfg.session i).command (s.players i) call = some p :=
    playerStep_iff.mpr move
  have asks : (s.session cfg i).answersPlayer call = true ∨ (s.played i call p).CutOff cfg i (s.session cfg i) := by
    cases move with
    | recvEnd place =>
      obtain ⟨drained, over_⟩ := Bool.and_eq_true_iff.mp answers
      have cut (ended : s.server.main = .exited ∨ s.server.Refused i) :
          (s.played i (.recv (some [])) { s.players i with pc := .finished }).CutOff cfg i (s.session cfg i) :=
        ⟨ended, place, List.isEmpty_iff.mp drained, by simp [session, played, PlayerCall.taken]⟩
      rcases Bool.or_eq_true_iff.mp over_ with closed | exited
      · obtain ⟨c, found, closed⟩ := (Option.any_eq_true _ _).mp closed
        cases thread : c.handler with
        | none => exact Or.inr (cut (Or.inr ⟨c, found, thread, closed⟩))
        | some h =>
          have seen : s.server.seenAt (cfg.stack i) i = (h, c.closed) := SongServerState.seenAt_of found thread
          exact Or.inl (by simp [SongSession.answersPlayer, session, seen, closed, drained])
      · exact Or.inr (cut (Or.inl (by simpa using exited)))
    | @recv bytes _ nonempty _ =>
      cases bytes with
      | nil => exact absurd rfl nonempty
      | cons b rest => exact Or.inl answers
    | _ => exact Or.inl rfl
  refine asks.imp_left fun asks => ?_
  simp only [session, sessionStep] at asks ⊢
  simp only [if_pos asks, step, Option.map_some, played, Function.update_self]

/-- What ends the view of a session: its client is cut off, or its handler reads the paths when it is late. -/
def SongNetwork.Leaves (cfg : NetworkConfig) (i : Nat) (s : SongNetwork) (u : SongSession) : Prop :=
  s.CutOff cfg i u ∨ s.server.lateAt i = true

/-- An action of the connection is a call of its session, or the session is left with it. -/
theorem NetworkMove.session_own (move : NetworkMove cfg s action t) (inv : NetworkInv cfg s)
    (own : action.connection = some i) :
    (∃ b, sessionStep (cfg.session i) (s.session cfg i) b = some (t.session cfg i)) ∨
      t.Leaves cfg i (s.session cfg i) := by
  cases move with
  | main | wakeup | interrupt | kill => cases own
  | @handler j call server running answers moved =>
    cases own
    obtain ⟨c, h, h', c', found, thread, step, connections, -, -, late, -⟩ := songHandlerStep_view moved
    have found' : (s.called i call server).server.connections[i]? = some c' := by
      rw [SongNetwork.called, connections, getElem?_set_found found]
    cases reads : (s.server.socket ≠ .opened && h.readsPaths call) with
    | true => exact Or.inr (Or.inr (by simp [SongServerState.lateAt, found', late, ← reads]))
    | false => exact Or.inl ⟨_, SongNetwork.session_handler (inv.shut.answers answers step reads) moved⟩
  | closeSocket running moved =>
    cases own
    exact Or.inl ⟨_, SongNetwork.session_closeSocket moved⟩
  | @reuse j c h file _ found thread late =>
    cases own
    exact Or.inr (Or.inr ((Option.any_eq_true _ _).mpr ⟨_, getElem?_set_found found _, late⟩))
  | player answers moved =>
    cases own
    exact (SongNetwork.session_player answers moved).imp (fun step => ⟨_, step⟩) Or.inl

theorem SongNetwork.CutOff.alone {u : SongSession} {c : SongConnection} {h : SongHandler} (cut : s.CutOff cfg i u)
    (running : s.server.main ≠ .exited) (found : s.server.connections[i]? = some c) (thread : c.handler = some h) :
    False := by
  obtain ⟨d, here, free, -⟩ := cut.ended.resolve_left running
  cases here.symm.trans found
  cases free.symm.trans thread

/-- After the end of its session a client makes no call, and there is no handler to make one. -/
theorem SongNetwork.CutOff.idle {u : SongSession} (cut : s.CutOff cfg i u) (move : NetworkMove cfg s action t) :
    action.connection ≠ some i := by
  intro own
  cases move with
  | main | wakeup | interrupt | kill => cases own
  | handler running _ moved =>
    cases own
    obtain ⟨c, h, h', c', found, thread, -⟩ := songHandlerStep_view moved
    exact cut.alone running found thread
  | closeSocket running moved =>
    cases own
    obtain ⟨c, h, found, thread, -⟩ := songCloseSocket_view moved
    exact cut.alone running found thread
  | reuse running found thread =>
    cases own
    exact cut.alone running found thread
  | player _ moved =>
    cases own
    have finished : (s.players i).pc = .finished := congrArg (fun u : SongSession => u.player.pc) cut.session
    cases moved <;> simp_all

/-- What the session was left with stays. -/
theorem SongNetwork.Leaves.stays {u : SongSession} (leaves : s.Leaves cfg i u)
    (slots : SlotInv cfg.maxConcurrentClients s.server) (step : networkStep cfg s action = some t) :
    t.Leaves cfg i u := by
  rcases leaves with cut | late
  · refine Or.inl ⟨?_, cut.receiving, cut.drained, ?_⟩
    · rcases cut.ended with exited | refused
      · rcases networkStep_server step with same | ⟨call, moved⟩ | ended
        · exact Or.inl (by rw [same, exited])
        · exact absurd exited (songServerStep_running moved)
        · exact Or.inl (by rw [show t.server = _ from ended])
      · rcases networkStep_server step with same | ⟨call, moved⟩ | ended
        · exact Or.inr (same ▸ refused)
        · exact Or.inr (refused.move slots (songServerStep_move moved))
        · exact Or.inl (by rw [show t.server = _ from ended])
    · exact ((networkStep_move step).session_other slots (cut.idle (networkStep_move step))).trans cut.session
  · rcases networkStep_server step with same | ⟨call, moved⟩ | ended
    · exact Or.inr (same ▸ late)
    · exact Or.inr ((songServerStep_move moved).lateAt late)
    · exact Or.inr (by rw [show t.server = _ from ended]; exact late)

theorem network_sessions (some_ : 1 ≤ cfg.maxConcurrentClients) (reach : (songNetwork cfg).Reach s) (i : Nat) :
    (sessionSystem (cfg.session i)).Reach (s.session cfg i) ∨
      ∃ u, (sessionSystem (cfg.session i)).Reach u ∧ s.Leaves cfg i u := by
  refine reach.projectUntil (SongNetwork.session cfg · i) (fun s initial => ?_) (fun s action t before _ step => ?_)
    fun s action t u before leaves step => leaves.stays (network_inv some_ before).slots step
  · rw [show s = .start from initial]
    rfl
  · have inv := network_inv some_ before
    have move := networkStep_move step
    by_cases own : action.connection = some i
    · exact Or.inr (move.session_own inv own)
    · exact Or.inl (move.session_other inv.slots own)

/-- No handler reads the paths when main has freed them. -/
def SongNetwork.readsKept (s : SongNetwork) : NetworkAction → Bool
  | .handler i call => !(s.server.pathsFreed && s.server.readsPaths (.handler i call))
  | _ => true

/-- The network is the server with a session for each client, whatever the others and main do. What is seen of the
server is a state that it reaches alone, until its process ends. What is seen of a connection is a reachable state of a
session, or that with the client at the end of the stream, if the server has refused the connection or ended. This
holds as long as the handler of the connection has not read the paths when `server_socket` was closed. -/
theorem song_network_sessions (some_ : 1 ≤ cfg.maxConcurrentClients)
    (via : (songNetwork cfg).ReachVia SongNetwork.readsKept s) :
    ((songServerSystem cfg.maxConcurrentClients cfg.songPaths).Reach s.server ∨
      ∃ u, (songServerSystem cfg.maxConcurrentClients cfg.songPaths).Reach u ∧ s.EndedIn u) ∧
    ∀ i, s.server.lateAt i = false → (sessionSystem (cfg.session i)).Reach (s.session cfg i) ∨
      ∃ u, (sessionSystem (cfg.session i)).Reach u ∧ s.CutOff cfg i u := by
  refine ⟨network_server via.reach, fun i intime => ?_⟩
  rcases network_sessions some_ via.reach i with inside | ⟨u, inside, cut | late⟩
  · exact Or.inl inside
  · exact Or.inr ⟨u, inside, cut⟩
  · cases intime.symm.trans late

/-- Every client types what the client of the second song types. -/
def secondSongNetwork : NetworkConfig where
  maxConcurrentClients := 2
  songPaths := secondSongConfig.songPaths
  files := secondSongConfig.files
  typed _ := secondSongConfig.typed
  command _ := secondSongConfig.command
  stack _ := secondSongConfig.stack

/-- The first client is served. The server is interrupted while it accepts the second one, which it then refuses. -/
def refusingRun : List NetworkAction :=
  List.replicate 14 (.main true) ++
    [.player 0 .fgets, .player 1 .fgets, .player 0 (.send (some 2)), .handler 0 (.recv (some (ascii "2\n"))),
      .player 0 (.popen true), .handler 0 (.fopen (some [7, 8])), .main true, .interrupt, .main true,
      .player 1 (.send (some 2)), .handler 0 (.fread 2 false), .player 1 (.popen true), .handler 0 (.send 2 (some 2)),
      .main true, .player 0 (.recv (some [7, 8])), .handler 0 (.fread 0 false), .player 1 (.recv (some [])),
      .player 0 (.fwrite true), .closeSocket 0, .player 0 (.recv (some [])), .handler 0 .closeClient]

set_option maxRecDepth 8000 in
/-- Both clients come to their ends. -/
theorem refusingRun_ends :
    ∃ s, (songNetwork secondSongNetwork).execVia SongNetwork.readsKept .start refusingRun = some s ∧
      (s.players 0).pc = .finished ∧ (s.players 1).pc = .finished ∧
      s.server.lateAt 0 = false ∧ s.server.lateAt 1 = false :=
  ⟨_, rfl, rfl, rfl, rfl, rfl⟩

theorem song_network_sessions_refused :
    ∃ s, (songNetwork secondSongNetwork).execVia SongNetwork.readsKept .start refusingRun = some s ∧
      ((sessionSystem secondSongConfig).Reach (s.session secondSongNetwork 1) ∨
        ∃ u, (sessionSystem secondSongConfig).Reach u ∧ s.CutOff secondSongNetwork 1 u) := by
  obtain ⟨s, run, -, -, -, intime⟩ := refusingRun_ends
  exact ⟨s, run, (song_network_sessions (by decide) (System.ReachVia.exec (.start rfl) run)).2 1 intime⟩

/-- A client at its end has played what its handler has sent, also where its session is cut off. -/
theorem network_finished (some_ : 1 ≤ cfg.maxConcurrentClients) (reach : (songNetwork cfg).Reach s)
    (intime : s.server.lateAt i = false) (finished : (s.players i).pc = .finished) :
    ∃ u, SessionInv (cfg.session i) u ∧ (s.players i).written = u.handler.accepted ∧
      u.handler = (s.server.seenAt (cfg.stack i) i).1 ∧ u.asked = s.asked i ∧ u.calls = s.calls i := by
  rcases network_sessions some_ reach i with inside | ⟨u, inside, cut | late⟩
  · have inv := SessionInv.reach inside
    exact ⟨_, inv, (inv.delivers finished).2.1, rfl, rfl, rfl⟩
  · have inv := SessionInv.reach inside
    have player := inv.player
    rw [PlayerInv, cut.receiving] at player
    have played : s.players i = { u.player with pc := .finished } := congrArg SongSession.player cut.session
    have handler : (s.server.seenAt (cfg.stack i) i).1 = u.handler := congrArg SongSession.handler cut.session
    have asked : s.asked i = u.asked := congrArg SongSession.asked cut.session
    have calls : s.calls i = u.calls := congrArg SongSession.calls cut.session
    refine ⟨u, inv, ?_, handler.symm, asked.symm, calls.symm⟩
    calc (s.players i).written
      _ = u.player.received := by rw [played]; exact player
      _ = u.handler.accepted := by rw [← inv.down, cut.drained, List.append_nil]
  · cases intime.symm.trans late

/-- With all its clients and through every interleaving the server plays to each what it has asked for. A client at its
end has played the bytes that its own handler has sent, and if that handler reports success, they are the file of the
song that this client has chosen, except where some call of `send` took less than it was given. A handler that has read
the paths when `server_socket` was closed can have lost the descriptor of its file. -/
theorem song_network_delivers (some_ : 1 ≤ cfg.maxConcurrentClients)
    (via : (songNetwork cfg).ReachVia SongNetwork.readsKept s) (i : Nat) (intime : s.server.lateAt i = false)
    (finished : (s.players i).pc = .finished) :
    (s.players i).written = s.server.acceptedBy i ∧
      ∀ c h, s.server.connections[i]? = some c → c.handler = some h → .streamed ∈ h.log →
        ∃ songIdx path content, .requested songIdx path ∈ h.log ∧
          SongChosen (cfg.session i) (s.session cfg i) songIdx path ∧ cfg.files path = some content ∧
          ((s.players i).written = content ↔ ∀ call ∈ s.calls i, call.takesAll = true) := by
  obtain ⟨u, inv, played, handler, asked, calls⟩ := network_finished some_ via.reach intime finished
  constructor
  · rw [played, handler, ← SongServerState.acceptedBy_eq]
  · intro c h found thread success
    rw [SongServerState.seenAt_of found thread] at handler
    subst handler
    obtain ⟨songIdx, path, content, requested, chosen, file, whole⟩ := inv.streamed success
    rw [← played, calls] at whole
    have typed := chosen.typed
    rw [asked] at typed
    exact ⟨songIdx, path, content, requested, ⟨chosen.number, chosen.listed, typed⟩, file, whole⟩

theorem song_network_delivers_second_song :
    ∃ s, (songNetwork secondSongNetwork).execVia SongNetwork.readsKept .start refusingRun = some s ∧
      (s.players 0).written = s.server.acceptedBy 0 ∧ (s.players 1).written = s.server.acceptedBy 1 := by
  obtain ⟨s, run, first, second, intime, intime'⟩ := refusingRun_ends
  have via := System.ReachVia.exec (.start rfl) run
  exact ⟨s, run, (song_network_delivers (by decide) via 0 intime first).1,
    (song_network_delivers (by decide) via 1 intime' second).1⟩

end PCProject
