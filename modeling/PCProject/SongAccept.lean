import PCProject.SongServer

namespace PCProject

/-- A call that main makes before its loop. The program ends where it fails. -/
inductive SetUpCall
  | songPaths
  | socket
  | bind
  | listen
  deriving DecidableEq

def SetUpCall.next : SetUpCall → Option SetUpCall
  | .songPaths => some .socket
  | .socket => some .bind
  | .bind => some .listen
  | .listen => none

/-- What main reports then; `get_song_paths_from_dir` has messages of its own. -/
def SetUpCall.message : SetUpCall → Option String
  | .songPaths => none
  | .socket => some "ERROR! Could not create socket for listening\n"
  | .bind => some "ERROR! Could not bind socket to port\n"
  | .listen => some "ERROR! Could not listen on socket\n"

/-- The descriptor in `server_socket`. Before `socket` it is 0, and a `close` of it closes the standard input. Once it
is closed a file of a handler can get its number, and the next `close` of it then closes this file. -/
inductive ServerSocket
  | unset
  | opened
  | closed
  | closedAgain
  deriving DecidableEq

def ServerSocket.close : ServerSocket → ServerSocket
  | .unset => .unset
  | .opened => .closed
  | .closed | .closedAgain => .closedAgain

/-- Where main of the song server is once `inthand` is installed. `testing` is the section that
tests the number of live handlers, and `signalled` the same section after a wakeup. -/
inductive AcceptPc
  | settingUp (call : SetUpCall)
  | clearingStop
  | loop
  | testing
  | asleep
  | signalled
  | allocating
  | accepting
  | accepted (client : Option Nat)
  | counting (i : Nat)
  | creating (i : Nat)
  | stopping
  | freeing
  | returning
  | exited
  deriving DecidableEq

/-- An accepted connection: its handler thread, if there is one, and whether its socket has been
closed. The rest is history: whether main has counted it, how often `close_client` has
decremented the count for it, and whether its handler has read `song_paths` or opened its file
when `server_socket` was not open any more. -/
structure SongConnection where
  handler : Option SongHandler := none
  closed : Bool := false
  counted : Bool := false
  decrements : Nat := 0
  late : Bool := false

structure SongServerState where
  connections : List SongConnection
  liveHandlersCount : Int
  stop : Bool
  socket : ServerSocket
  pathsFreed : Bool
  main : AcceptPc

/-- A step of main with the success of the call it makes and the memory that a new thread finds
on its stack, a system call or the `close` of a handler, a spurious wakeup, or `inthand`. With
`reuse` the descriptor of the file of a handler stands for another file from then on. -/
inductive SongAction
  | main (success : Bool) (stack : Bytes)
  | wakeup
  | handler (i : Nat) (call : SongCall)
  | closeSocket (i : Nat)
  | interrupt
  | reuse (i : Nat) (file : FileStream)

def SongServerState.start : SongServerState where
  connections := []
  liveHandlersCount := 0
  stop := false
  socket := .unset
  pathsFreed := false
  main := .settingUp .songPaths

/-- Whether the kernel lets a call of the start-up succeed: `bind` and `listen` need the socket. -/
def ServerSocket.allows (socket : ServerSocket) : SetUpCall → Bool
  | .songPaths | .socket => true
  | .bind | .listen => socket = .opened

/-- What `server_socket` is after a call that succeeds. -/
def ServerSocket.after (socket : ServerSocket) : SetUpCall → ServerSocket
  | .socket => .opened
  | _ => socket

/-- Whether the kernel lets `accept` succeed. Behind a stop request it may have been called before the socket was
closed, and then it still waits for a connection. -/
def SongServerState.canAccept (s : SongServerState) : Bool := s.socket = .opened || s.stop

/-- `pthread_cond_signal` of the only condition variable, on which only main waits. -/
def AcceptPc.signal (pc : AcceptPc) : AcceptPc := if pc = .asleep then .signalled else pc

def SongServerState.setConnection (s : SongServerState) (i : Nat) (c : SongConnection) : SongServerState :=
  { s with connections := s.connections.set i c }

/-- The next step of main. A failed `accept` returns -1, which is no connection. -/
def songMainStep (maxConcurrentClients : Int) (s : SongServerState) (success : Bool) (stack : Bytes) :
    Option SongServerState :=
  match s.main with
  | .settingUp call =>
    if success then
      if s.socket.allows call then
        some { s with socket := s.socket.after call, main := call.next.elim .clearingStop .settingUp }
      else none
    else some { s with main := .exited }
  | .clearingStop => some { s with stop := false, main := .loop }
  | .loop => some { s with main := if s.stop then .stopping else .testing }
  | .testing | .signalled =>
    some { s with main := if maxConcurrentClients ≤ s.liveHandlersCount then .asleep else .allocating }
  | .asleep => none
  | .allocating => some { s with main := if success then .accepting else .exited }
  | .accepting =>
    if success then
      if s.canAccept then
        some { s with connections := s.connections ++ [{}], main := .accepted (some s.connections.length) }
      else none
    else some { s with main := .accepted none }
  | .accepted none => some { s with main := if s.stop then .stopping else .loop }
  | .accepted (some i) => do
    let c ← s.connections[i]?
    if s.stop then some { s.setConnection i { c with closed := true } with main := .stopping }
    else some { s with main := .counting i }
  | .counting i => do
    let c ← s.connections[i]?
    some { s.setConnection i { c with counted := true } with
      liveHandlersCount := s.liveHandlersCount + 1, main := .creating i }
  | .creating i => do
    let c ← s.connections[i]?
    if success then
      if bufferSize ≤ stack.length then
        some { s.setConnection i { c with handler := some (.start stack) } with main := .loop }
      else none
    else some { s with main := .loop }
  | .stopping => some { s with socket := s.socket.close, main := .freeing }
  | .freeing => some { s with pathsFreed := true, main := .returning }
  | .returning => some { s with main := .exited }
  | .exited => none

/-- Whether a system call goes with a read of `song_paths[song_idx - 1]`: for the log of a valid request,
and for `fopen` with the message about its failure. -/
def SongHandler.readsPaths (h : SongHandler) (call : SongCall) : Bool :=
  match h.pc, call with
  | .receiving, .recv (some received) =>
    !received.isEmpty && (atoi (overwrite h.stack received)).any fun songIdx : Int => 1 ≤ songIdx ∧ songIdx ≤ songCount
  | .opening _ _, .fopen _ => true
  | _, _ => false

/-- A system call of handler `i`. `close_client` first closes the socket; what follows under the
mutex is the step `closeClient`. -/
def songHandlerStep (songPaths : List String) (s : SongServerState) (i : Nat) (call : SongCall) :
    Option SongServerState := do
  let c ← s.connections[i]?
  let h ← c.handler
  let h' ← songStep songPaths h call
  match call with
  | .closeClient =>
    if c.closed then
      some { s.setConnection i { c with handler := some h', decrements := c.decrements + 1 } with
        liveHandlersCount := s.liveHandlersCount - 1, main := s.main.signal }
    else none
  | _ =>
    let late := c.late || (s.socket ≠ .opened && h.readsPaths call)
    some (s.setConnection i { c with handler := some h', late := late })

def songCloseSocket (s : SongServerState) (i : Nat) : Option SongServerState := do
  let c ← s.connections[i]?
  let h ← c.handler
  if h.pc = .closing ∧ ¬c.closed then some (s.setConnection i { c with closed := true }) else none

/-- A file that was opened after the first `close` of `server_socket` can have its number. After the second one its
descriptor is closed, or any file that another handler opens has it, which then shares it with this handler. -/
def songReuse (s : SongServerState) (i : Nat) (file : FileStream) : Option SongServerState := do
  let c ← s.connections[i]?
  let h ← c.handler
  if s.socket = .closedAgain ∧ c.late ∧ h.fd.isSome then
    some (s.setConnection i { c with handler := some { h with fd := some file } })
  else none

/-- All threads end with main. -/
def songServerStep (maxConcurrentClients : Int) (songPaths : List String) (s : SongServerState) (action : SongAction) :
    Option SongServerState :=
  if s.main = .exited then none
  else match action with
  | .main success stack => songMainStep maxConcurrentClients s success stack
  | .wakeup => if s.main = .asleep then some { s with main := .signalled } else none
  | .handler i call => songHandlerStep songPaths s i call
  | .closeSocket i => songCloseSocket s i
  | .interrupt => some { s with stop := true, socket := s.socket.close }
  | .reuse i file => songReuse s i file

def songServerSystem (maxConcurrentClients : Int) (songPaths : List String) : System SongServerState SongAction where
  init s := s = .start
  step := songServerStep maxConcurrentClients songPaths

end PCProject
