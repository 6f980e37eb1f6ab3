import PCProject.Lib.CString
import PCProject.Lib.Transition

namespace PCProject

/-- What `get_message` comes back with. A closed connection, an error and a message that starts
with a NUL all give the empty message; `timeout` also sets `timed_out`. -/
inductive Received
  | text (message : Bytes)
  | timeout

def Received.message : Received → Bytes
  | .text message => message
  | .timeout => []

def Received.timedOut : Received → Bool
  | .text _ => false
  | .timeout => true

/-- The places from which `handle_client` calls `close_`. -/
inductive CloseSite
  | unnamed
  | refused
  | leaving
  deriving DecidableEq

/-- The next call of `handle_client`. -/
inductive HandlerPc
  | notStarted
  | welcome
  | getName
  | nameTimedOut
  | register
  | broadcastJoin
  | loop
  | getMessage
  | timedOut
  | unregister
  | list
  | broadcastMessage (message : Bytes)
  | broadcastLeave
  | close (site : CloseSite)
  | delete
  | returned
  deriving DecidableEq

/-- The calls themselves. `isOnline` is the test of the loop. -/
inductive ChatCall
  | send (message : Bytes)
  | sendUserlist (header : Bytes)
  | getName
  | getMessage
  | register
  | unregister
  | isOnline
  | broadcast (message : Bytes)
  | close
  | delete

inductive Reply
  | done
  | received (r : Received)
  | answer (yes : Bool)

def HandlerPc.call (name : Bytes) : HandlerPc → Option ChatCall
  | .notStarted => none
  | .welcome => some (.sendUserlist (ascii "<SERVER> Welcome to the chatroom\n<SERVER> Currently connected users are:"))
  | .getName => some .getName
  | .nameTimedOut => some (.send (ascii "<SERVER> Connection timed out"))
  | .register => some .register
  | .broadcastJoin => some (.broadcast (ascii "<SERVER> Client " ++ name ++ ascii " has joined the chatroom"))
  | .loop => some .isOnline
  | .getMessage => some .getMessage
  | .timedOut => some (.send (ascii "<SERVER> Connection timed out"))
  | .unregister => some .unregister
  | .list => some (.sendUserlist (ascii "<SERVER> Currently connected users are:"))
  | .broadcastMessage message => some (.broadcast (ascii "[" ++ name ++ ascii "] " ++ message))
  | .broadcastLeave => some (.broadcast (ascii "<SERVER> Client " ++ name ++ ascii " has left the chatroom"))
  | .close _ => some .close
  | .delete => some .delete
  | .returned => none

/-- Where `handle_client` goes when a call returns. A refused client falls through from its
`close_` to the broadcast. -/
def HandlerPc.resume : HandlerPc → Reply → Option HandlerPc
  | .welcome, .done => some .getName
  | .getName, .received r =>
    some (if r.message.isEmpty then .close .unnamed else if r.timedOut then .nameTimedOut else .register)
  | .nameTimedOut, .done => some (.close .unnamed)
  | .register, .answer accepted => some (if accepted then .broadcastJoin else .close .refused)
  | .broadcastJoin, .done => some .loop
  | .loop, .answer online => some (if online then .getMessage else .broadcastLeave)
  | .getMessage, .received r =>
    some (if r.timedOut then .timedOut
      else if r.message.isEmpty then .unregister
      else if r.message = ascii "\\list" then .list
      else if r.message = ascii "\\bye" then .unregister
      else .broadcastMessage r.message)
  | .timedOut, .done => some .unregister
  | .unregister, .done => some .loop
  | .list, .done => some .loop
  | .broadcastMessage _, .done => some .loop
  | .broadcastLeave, .done => some (.close .leaving)
  | .close .unnamed, .done => some .returned
  | .close .refused, .done => some .broadcastJoin
  | .close .leaving, .done => some .delete
  | .delete, .done => some .returned
  | _, _ => none

/-- The map from names to clients, in the order of its keys. -/
abbrev Users := List (Bytes × Nat)

/-- `users[name] = client` for a name that is not in the map. -/
def insertUser (name : Bytes) (client : Nat) : Users → Users
  | [] => [(name, client)]
  | user :: rest => if name < user.1 then (name, client) :: user :: rest else user :: insertUser name client rest

def eraseUser (name : Bytes) (users : Users) : Users := users.filter fun user => user.1 ≠ name

def userlist (users : Users) : Bytes := users.flatMap fun user => ascii "\n\t-" ++ user.1

/-- `new Client()` leaves all members zero. -/
structure Client where
  name : Bytes := []
  timedOut : Bool := false
  isOnline : Bool := false

/-- An accepted connection: its client, its handler, and whether the handler is in `close_`
between the update of `live_users` and `notify_all`. `closes` is history: how often `close_`
has been called on the connection. -/
structure Connection where
  client : Client := {}
  pc : HandlerPc := .notStarted
  closing : Bool := false
  closes : Nat := 0

/-- Where main is. `testing` evaluates the predicate of the condition variable, `falling` has
found it false and still holds the mutex, `stopping` is the loop over the remaining users. -/
inductive MainPc
  | loop
  | testing
  | falling
  | asleep
  | ready
  | accepting
  | counted (i : Nat)
  | spawning (i : Nat)
  | closing (i : Nat) (visited : Option Bytes)
  | notifying (visited : Option Bytes)
  | stopping (visited : Option Bytes)
  | exited
  deriving DecidableEq

/-- The chat server. `interrupted` is set while `handle_sig` is between its update of `running`
and `notify_all`. `sent` is history: the messages sent, with the number of the connection. -/
structure ChatState where
  users : Users
  connections : List Connection
  liveUsers : Int
  running : Bool
  main : MainPc
  interrupted : Bool
  sent : List (Nat × Bytes)

/-- A step of a thread or of the signal handler, with what it receives from outside. -/
inductive ChatAction
  | main (accepted : Bool)
  | wakeup
  | handler (i : Nat) (received : Received)
  | interrupt
  | interruptNotify

def ChatState.start : ChatState where
  users := []
  connections := []
  liveUsers := 0
  running := true
  main := .loop
  interrupted := false
  sent := []

/-- `notify_all` of the only condition variable, on which only main waits. -/
def MainPc.notifyAll (pc : MainPc) : MainPc := if pc = .asleep then .testing else pc

/-- The predicate of `wait_till_can_accept`. -/
def ChatState.canAccept (maxConcurrentClients : Int) (s : ChatState) : Bool :=
  !s.running || s.liveUsers < maxConcurrentClients

/-- The entry of the map that an iteration visits after some name. -/
def nextUser (visited : Option Bytes) (users : Users) : Option (Bytes × Nat) :=
  users.find? fun user => visited.all (· < user.1)

/-- A call of the handler of connection `i`, all but `close_`, with its effect on the client,
the map of users and the messages sent. -/
def ChatState.perform (s : ChatState) (i : Nat) (client : Client) (r : Received) :
    ChatCall → Option (Reply × Client × Users × List (Nat × Bytes))
  | .send message => some (.done, client, s.users, s.sent ++ [(i, message)])
  | .sendUserlist header => some (.done, client, s.users, s.sent ++ [(i, header ++ userlist s.users)])
  | .getName => some (.received r, { client with name := r.message, timedOut := r.timedOut }, s.users, s.sent)
  | .getMessage => some (.received r, { client with timedOut := r.timedOut }, s.users, s.sent)
  | .register =>
    if s.users.any fun user => user.1 = client.name then some (.answer false, client, s.users, s.sent)
    else some (.answer true, { client with isOnline := true }, insertUser client.name i s.users, s.sent)
  | .unregister => some (.done, { client with isOnline := false }, eraseUser client.name s.users, s.sent)
  | .isOnline => some (.answer client.isOnline, client, s.users, s.sent)
  | .broadcast message =>
    let others := s.users.filter fun user => user.2 ≠ i
    some (.done, client, s.users, s.sent ++ others.map fun user => (user.2, message))
  | .delete => some (.done, client, s.users, s.sent)
  | .close => none

/-- The next step of the handler of connection `i`. Every call is one step, except that
`close_` first updates `live_users` and then notifies. Detached threads end with main. -/
def handlerStep (s : ChatState) (i : Nat) (r : Received) : Option ChatState := do
  let c ← s.connections[i]?
  if s.main = .exited then none
  else if c.closing then
    let pc ← c.pc.resume .done
    some { s with main := s.main.notifyAll, connections := s.connections.set i { c with pc := pc, closing := false } }
  else
    let call ← c.pc.call c.client.name
    match call with
    | .close => some { s with
        liveUsers := s.liveUsers - 1
        connections := s.connections.set i { c with closing := true, closes := c.closes + 1 } }
    | call =>
      let (reply, client, users, sent) ← s.perform i c.client r call
      let pc ← c.pc.resume reply
      some { s with
        users := users, sent := sent, connections := s.connections.set i { c with client := client, pc := pc } }

/-- The next step of main. Only main reads `live_users`, so `accept` and the increment after it
are one step. -/
def mainStep (maxConcurrentClients : Int) (s : ChatState) (accepted : Bool) : Option ChatState :=
  match s.main with
  | .loop => some { s with main := if s.running then .testing else .stopping none }
  | .testing => some { s with main := if s.canAccept maxConcurrentClients then .ready else .falling }
  | .falling => some { s with main := .asleep }
  | .asleep => none
  | .ready => some { s with main := if s.running then .accepting else .stopping none }
  | .accepting =>
    if accepted then
      some { s with
        connections := s.connections ++ [{}], liveUsers := s.liveUsers + 1, main := .counted s.connections.length }
    else some { s with main := .loop }
  | .counted i => some { s with main := if s.running then .spawning i else .closing i none }
  | .spawning i => do
    let c ← s.connections[i]?
    some { s with connections := s.connections.set i { c with pc := .welcome }, main := .loop }
  | .closing i visited => do
    let c ← s.connections[i]?
    some { s with
      liveUsers := s.liveUsers - 1, connections := s.connections.set i { c with closes := c.closes + 1 }
      main := .notifying visited }
  | .notifying visited => some { s with main := .stopping visited }
  | .stopping visited =>
    match nextUser visited s.users with
    | none => some { s with main := .exited }
    | some (name, i) => some { s with main := .closing i (some name) }
  | .exited => none

def chatStep (maxConcurrentClients : Int) (s : ChatState) : ChatAction → Option ChatState
  | .main accepted => mainStep maxConcurrentClients s accepted
  | .wakeup => if s.main = .asleep then some { s with main := .testing } else none
  | .handler i r => handlerStep s i r
  | .interrupt => if s.interrupted then none else some { s with running := false, interrupted := true }
  | .interruptNotify =>
    if s.interrupted then some { s with main := s.main.notifyAll, interrupted := false } else none

def chatSystem (maxConcurrentClients : Int) : System ChatState ChatAction where
  init s := s = .start
  step := chatStep maxConcurrentClients

end PCProject
