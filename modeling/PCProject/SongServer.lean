import PCProject.Lib.CString
import PCProject.Lib.Transition

namespace PCProject

def songCount : Nat := 3

def bufferSize : Nat := 1024

def streamChunkSize : Nat := 1024

/-- What `handle_client` logs about a client. -/
inductive SongLog
  | established
  | closedBeforeMessage
  | receiveFailed
  | invalidIndex (songIdx : Int)
  | requested (songIdx : Int) (path : String)
  | openFailed (songIdx : Int) (path : String)
  | readFailed
  | streamed
  | sendFailed
  | closed
  deriving DecidableEq

def SongLog.message : SongLog → String
  | .established => "Established connection with client"
  | .closedBeforeMessage => "ERROR! Client closed connection before message was sent"
  | .receiveFailed => "ERROR! Could not receive data from client"
  | .invalidIndex songIdx => "ERROR! Client sent invalid song index `" ++ toString songIdx ++ "`"
  | .requested songIdx path => "Client requested song `" ++ toString songIdx ++ "` (`" ++ path ++ "`)"
  | .openFailed songIdx path => "ERROR! Could not open song `" ++ toString songIdx ++ "` (`" ++ path ++ "`)"
  | .readFailed => "ERROR! Could not read file :)"
  | .streamed => "Successfully streamed song to client :)"
  | .sendFailed => "ERROR! Could not send data to client"
  | .closed => "Closed connection with client"

/-- An open file with the position that `fread` continues from. -/
structure FileStream where
  content : Bytes
  position : Nat

/-- Where a handler is in `handle_client`. `closing` stands before `close_client`. -/
inductive SongPc
  | receiving
  | opening (songIdx : Int) (path : String)
  | reading
  | sending (numRead : Nat)
  | closing
  | returned
  deriving DecidableEq

/-- A handler of the song server. `stack` is the memory from `buffer` on, as far as it can be
read; only its first `bufferSize` bytes belong to `buffer`. `accepted` is history: the bytes
that `send` has taken, in order. -/
structure SongHandler where
  pc : SongPc
  stack : Bytes
  fd : Option FileStream
  accepted : Bytes
  log : List SongLog

/-- The system calls of `handle_client` with what they return. `none` is the error result. -/
inductive SongCall
  | recv (received : Option Bytes)
  | fopen (content : Option Bytes)
  | fread (numRead : Nat) (ferror : Bool)
  | send (numRead : Nat) (numSent : Option Nat)
  | closeClient

def SongHandler.start (stack : Bytes) : SongHandler where
  pc := .receiving
  stack := stack
  fd := none
  accepted := []
  log := [.established]

/-- Log a message and go to `close_client`. -/
def SongHandler.fail (h : SongHandler) (line : SongLog) : SongHandler :=
  { h with pc := .closing, log := h.log ++ [line] }

/-- The first message of the client, up to the choice of the song. It is `none` where `atoi`
or the access to `song_paths` leaves the memory that can be read. -/
def SongHandler.choose (songPaths : List String) (h : SongHandler) (received : Bytes) : Option SongHandler := do
  let stack := overwrite h.stack received
  let songIdx ← atoi stack
  if 1 ≤ songIdx ∧ songIdx ≤ songCount then
    let path ← songPaths[(songIdx - 1).toNat]?
    some { h with pc := .opening songIdx path, stack := stack, log := h.log ++ [.requested songIdx path] }
  else some (SongHandler.fail { h with stack := stack } (.invalidIndex songIdx))

/-- One system call of `handle_client`, with what the source does until the next one. A call is
possible only with a result that its documentation allows. -/
def songStep (songPaths : List String) (h : SongHandler) (call : SongCall) : Option SongHandler :=
  match h.pc, call with
  | .receiving, .recv none => some (h.fail .receiveFailed)
  | .receiving, .recv (some received) =>
    if received.isEmpty then some (h.fail .closedBeforeMessage)
    else if received.length ≤ bufferSize then h.choose songPaths received
    else none
  | .opening songIdx path, .fopen none => some (h.fail (.openFailed songIdx path))
  | .opening _ _, .fopen (some content) => some { h with pc := .reading, fd := some ⟨content, 0⟩ }
  | .reading, .fread numRead ferror => do
    let fd ← h.fd
    if numRead = 0 then
      if ferror then some (h.fail .readFailed)
      else if fd.content.length ≤ fd.position then some (h.fail .streamed)
      else none
    else if numRead ≤ streamChunkSize ∧ fd.position + numRead ≤ fd.content.length then
      some { h with
        pc := .sending numRead, fd := some { fd with position := fd.position + numRead }
        stack := overwrite h.stack ((fd.content.drop fd.position).take numRead) }
    else none
  | .sending numRead, .send request none => if request = numRead then some (h.fail .sendFailed) else none
  | .sending numRead, .send request (some numSent) =>
    if request = numRead ∧ 1 ≤ numSent ∧ numSent ≤ numRead then
      some { h with pc := .reading, accepted := h.accepted ++ h.stack.take numSent }
    else none
  | .closing, .closeClient => some { h with pc := .returned, log := h.log ++ [.closed] }
  | _, _ => none

/-- One connection, with any contents of the uninitialised buffer and of what follows it. -/
def songSystem (songPaths : List String) : System SongHandler SongCall where
  init h := ∃ stack, bufferSize ≤ stack.length ∧ h = .start stack
  step := songStep songPaths

end PCProject
