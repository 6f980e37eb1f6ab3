import PCProject.ChatClient
import PCProject.ChatLines

namespace PCProject

/-- The chat server with a client at the other end of every connection. `uplink` and `downlink` are the bytes on the
way, and `taken` is history: the chunks that `recv` has given to `get_message`. -/
structure ChatSession where
  room : InterleavedChat
  chatters : Nat → Chatter
  uplink : Nat → Bytes
  downlink : Nat → Bytes
  taken : Nat → List Bytes

/-- A step of main or of the signal handler, of a handler, or of a client. -/
inductive ChatSessionAction
  | background (action : ChatAction)
  | handler (i : Nat) (poll : PollAnswer) (recv : RecvAnswer)
  | chatter (i : Nat) (call : ChatterCall)

/-- The options of the server, and what is typed at each client. -/
structure ChatConfig where
  maxConcurrentClients : Int
  timeout : Int
  typed : Nat → Bytes

def ChatSession.start (cfg : ChatConfig) : ChatSession where
  room := .start
  chatters i := .start (cfg.typed i)
  uplink _ := []
  downlink _ := []
  taken _ := []

/-- The handler of a connection is about to call `get_message`. -/
def ChatSession.hears (s : ChatSession) (i : Nat) : Bool := s.room.chat.connections[i]?.any fun c => c.pc.hears

/-- The chunk that `get_message` takes, if it comes to `recv` and bytes have arrived. -/
def takenChunk (timeout : Int) (poll : PollAnswer) : RecvAnswer → List Bytes
  | .received bytes => if timeout = -1 ∨ poll = .ready then [bytes] else []
  | _ => []

/-- `recv` gives some of the bytes that have been sent and not been received, in order. -/
def arrives (chunk stream : Bytes) : Bool := chunk ≠ [] && chunk.length ≤ 1024 && chunk.isPrefixOf stream

/-- What a handler gives to `send` goes into the streams, all of it, as the sockets block. -/
def ChatSession.handle (cfg : ChatConfig) (s : ChatSession) (i : Nat) (poll : PollAnswer) (recv : RecvAnswer) :
    Option ChatSession :=
  let chunks := if s.hears i then takenChunk cfg.timeout poll recv else []
  if chunks.all fun chunk => arrives chunk (s.uplink i) then do
    let r ← if s.hears i then Client.receive cfg.timeout poll recv else some .timeout
    let room ← interleavedStep cfg.maxConcurrentClients s.room (.handler i r)
    let sends := room.chat.sent.drop s.room.chat.sent.length
    some { s with
      room := room
      uplink := Function.update s.uplink i ((s.uplink i).drop chunks.flatten.length)
      downlink := fun j => s.downlink j ++ ((sends.filter fun send => send.1 = j).map Prod.snd).flatten
      taken := Function.update s.taken i (s.taken i ++ chunks) }
  else none

def ChatterCall.taken : ChatterCall → List Bytes
  | .read (.received chunk) => [chunk]
  | _ => []

def chatSessionStep (cfg : ChatConfig) (s : ChatSession) : ChatSessionAction → Option ChatSession
  | .background (.handler _ _) => none
  | .background action =>
    (interleavedStep cfg.maxConcurrentClients s.room action).map fun room => { s with room := room }
  | .handler i poll recv => s.handle cfg i poll recv
  | .chatter i call =>
    if call.taken.all fun chunk => arrives chunk (s.downlink i) then
      (chatterStep (s.chatters i) call).map fun c => { s with
        chatters := Function.update s.chatters i c
        uplink := Function.update s.uplink i (s.uplink i ++ (c.said.drop (s.chatters i).said.length).flatten)
        downlink := Function.update s.downlink i ((s.downlink i).drop call.taken.flatten.length) }
    else none

/-- The calls that use the socket of the client. -/
def ChatCall.usesSocket : ChatCall → Bool
  | .send _ | .sendUserlist _ | .getName | .getMessage | .close => true
  | _ => false

/-- `close_` has not been called on the client. -/
def ChatState.isOpen (s : ChatState) (i : Nat) : Bool := s.connections[i]?.all fun c => c.closes = 0

/-- The step makes no call on the socket of a client on which `close_` has been called. The streams are those of a
connection only until then: the descriptor can belong to another client afterwards. -/
def ChatSession.callsOpen (s : ChatSession) : ChatSessionAction → Bool
  | .handler i _ _ =>
    match s.room.stage i with
    | .outside => s.room.chat.connections[i]?.all fun c =>
      c.closing || !(c.pc.call c.client.name).any ChatCall.usesSocket || c.closes = 0
    | .sending _ _ j => s.room.chat.isOpen j
    | _ => true
  | .background (.main _) =>
    match s.room.chat.main with
    | .closing i _ => s.room.chat.isOpen i
    | _ => true
  | _ => true

/-- The connections may break at any time: `closed` and `failed` are always possible answers. -/
def chatSessions (cfg : ChatConfig) : System ChatSession ChatSessionAction where
  init s := s = .start cfg
  step := chatSessionStep cfg

/-- The bytes that the server has sent to a client. -/
def ChatSession.sentTo (s : ChatSession) (j : Nat) : Bytes :=
  ((s.room.chat.sent.filter fun send => send.1 = j).map Prod.snd).flatten

/-- What the server can say to a client: its own notices, with the first chunks of clients as their names, and lines
with the first chunk of another client in front of a later chunk of it. -/
inductive ServerSays (taken : Nat → List Bytes) (target : Nat) : Bytes → Prop
  | users {header users} :
      (header = ascii "<SERVER> Welcome to the chatroom\n<SERVER> Currently connected users are:" ∨
        header = userlistHeader) →
      SortedUsers users → (∀ user ∈ users, (taken user.2).head? = some user.1) →
      ServerSays taken target (header ++ userlist users)
  | timedOut : ServerSays taken target (ascii "<SERVER> Connection timed out")
  | joined {i name} : i ≠ target → (taken i).head? = some name →
      ServerSays taken target (ascii "<SERVER> Client " ++ name ++ ascii " has joined the chatroom")
  | left {i name} : i ≠ target → (taken i).head? = some name →
      ServerSays taken target (ascii "<SERVER> Client " ++ name ++ ascii " has left the chatroom")
  | line {i name text} : i ≠ target → (taken i).head? = some name → text ∈ (taken i).tail →
      ServerSays taken target (namePrefix name ++ text)

/-- The places of a handler that has got no name. -/
def HandlerPc.nameless : HandlerPc → Bool
  | .nameTimedOut | .close .unnamed | .returned => true
  | _ => false

/-- What a handler has of what its client has said. -/
structure Knows (taken : List Bytes) (c : Connection) : Prop where
  unnamed : c.pc.unnamed = true → taken = []
  named : c.pc.unnamed = false → c.pc.nameless = false → taken.head? = some c.client.name
  passing : ∀ text, c.pc.lineText = some text → text ∈ taken.tail

/-- The invariant of a session: no byte is lost, made up or moved between the keyboard of a client and its handler,
or between the server and a screen, and the server says only what it may. -/
structure ChatSessionInv (cfg : ChatConfig) (s : ChatSession) : Prop where
  room : RoomInv s.room
  up : ∀ i, (s.taken i).flatten ++ s.uplink i = (s.chatters i).said.flatten
  down : ∀ i, (s.chatters i).reads.flatten ++ s.downlink i = s.sentTo i
  chatters : ∀ i, ChatterInv (cfg.typed i) (s.chatters i)
  unborn : ∀ i, s.room.chat.connections[i]? = none → s.taken i = []
  knows : ∀ i c, s.room.chat.connections[i]? = some c → Knows (s.taken i) c
  aimed : ∀ i message key target, s.room.stage i = .sending message key target → target ≠ i
  spoken : ∀ send ∈ s.room.chat.sent, ServerSays s.taken send.1 send.2

variable {cfg : ChatConfig} {s s' : ChatSession} {i j : Nat} {r : Received} {c c' : Connection} {stage : CallStage}
  {users : Users} {sends : List (Nat × Bytes)} {taken taken' : Nat → List Bytes} {heardSo chunks : List Bytes}

theorem ChatSessionInv.start (cfg : ChatConfig) : ChatSessionInv cfg (.start cfg) where
  room := .start
  up _ := rfl
  down _ := rfl
  chatters i := .start (cfg.typed i)
  unborn _ _ := rfl
  knows i c found := by cases found
  aimed i message key target sending := by cases sending
  spoken send member := by cases member

theorem head_of_start {name : Bytes} (first : heardSo.head? = some name) (more : heardSo <+: chunks) :
    chunks.head? = some name := by
  obtain ⟨rest, rfl⟩ := more
  rw [List.head?_append, first]
  rfl

/-- What the server may say stays allowed while the clients say more. -/
theorem ServerSays.mono {target : Nat} {text : Bytes} (allowed : ServerSays taken target text)
    (more : ∀ i, taken i <+: taken' i) : ServerSays taken' target text := by
  cases allowed with
  | users header sorted names =>
    exact .users header sorted fun user member => head_of_start (names user member) (more _)
  | timedOut => exact .timedOut
  | joined other first => exact .joined other (head_of_start first (more _))
  | left other first => exact .left other (head_of_start first (more _))
  | @line i name text other first later =>
    refine .line other (head_of_start first (more i)) ?_
    obtain ⟨rest, same⟩ := more i
    have some_ : taken i ≠ [] := by
      intro empty
      rw [empty] at first
      cases first
    rw [← same, List.tail_append_of_ne_nil some_]
    exact List.mem_append_left _ later

/-- A result of `get_message` is the string of the chunk that has been taken, or empty. -/
theorem Client.receive_taken {timeout : Int} {poll : PollAnswer} {recv : RecvAnswer}
    (result : Client.receive timeout poll recv = some r) :
    (∃ chunk message, takenChunk timeout poll recv = [chunk] ∧ Client.getMessage chunk = some message ∧
      r = .text message) ∨ takenChunk timeout poll recv = [] ∧ r.message = [] := by
  by_cases asks : timeout = -1 ∨ poll = .ready
  · have goes : ¬(timeout ≠ -1 ∧ poll = .timedOut) ∧ ¬(timeout ≠ -1 ∧ poll = .failed) := by
      rcases asks with never | ready
      · simp [never]
      · simp [ready]
    unfold Client.receive at result
    rw [if_neg goes.1, if_neg goes.2] at result
    cases recv with
    | closed => cases result; exact .inr ⟨rfl, rfl⟩
    | failed => cases result; exact .inr ⟨rfl, rfl⟩
    | received bytes =>
      obtain ⟨message, reads, rfl⟩ := Option.map_eq_some_iff.mp result
      exact .inl ⟨bytes, message, if_pos asks, reads, rfl⟩
  · have nothing : takenChunk timeout poll recv = [] := by
      cases recv with
      | received bytes => exact if_neg asks
      | _ => rfl
    rw [not_or] at asks
    refine .inr ⟨nothing, ?_⟩
    cases poll with
    | ready => exact absurd rfl asks.2
    | timedOut =>
      unfold Client.receive at result
      rw [if_pos ⟨asks.1, rfl⟩] at result
      cases result
      rfl
    | failed =>
      unfold Client.receive at result
      rw [if_neg (by simp), if_pos ⟨asks.1, rfl⟩] at result
      cases result
      rfl

theorem HandlerPc.resume_nameless {pc pc' : HandlerPc} {reply : Reply} (next : pc.resume reply = some pc')
    (lost : pc.nameless = true) : pc'.nameless = true := by
  cases pc with
  | nameTimedOut => cases reply <;> cases next; rfl
  | close site => cases site <;> cases lost; cases reply <;> cases next; rfl
  | returned => cases reply <;> cases next
  | _ => cases lost

theorem HandlerPc.resume_unnamed {pc pc' : HandlerPc} {reply : Reply} (next : pc.resume reply = some pc')
    (unnamed : pc.unnamed = true) (other : pc ≠ .getName) : pc'.unnamed = true := by
  cases pc with
  | welcome => cases reply <;> cases next; rfl
  | notStarted => cases reply <;> cases next
  | getName => exact absurd rfl other
  | _ => cases unnamed

/-- A client in the map has a handler that knows its name. -/
theorem Connection.Staged.not_nameless (staged : c.Staged stage) (inside : c.Inside stage) :
    c.pc.nameless = false := by
  refine Bool.eq_false_of_not_eq_true fun lost => ?_
  have outside : c.pc.membership = some false := by
    cases place : c.pc with
    | nameTimedOut | returned | close => rfl
    | _ => rw [place] at lost; cases lost
  cases stage with
  | outside => cases (Connection.Settled.member staged false outside).symm.trans inside
  | inserting => rw [staged.1] at lost; cases lost
  | settingOnline => rw [staged.1] at lost; cases lost
  | erasing => rw [staged.1] at lost; cases lost
  | reading => cases (Connection.Settled.member staged.2.1 false outside).symm.trans inside
  | sending => cases (Connection.Settled.member staged.2.1 false outside).symm.trans inside

/-- A broadcast of a handler that knows its client. -/
theorem Knows.broadcast {message : Bytes} {target : Nat} (knows : Knows (taken i) c) (other : i ≠ target)
    (known : c.pc.call c.client.name = some (.broadcast message)) : ServerSays taken target message := by
  cases place : c.pc with
  | broadcastJoin =>
    rw [place] at known
    cases known
    exact .joined other (knows.named (by rw [place]; rfl) (by rw [place]; rfl))
  | broadcastLeave =>
    rw [place] at known
    cases known
    exact .left other (knows.named (by rw [place]; rfl) (by rw [place]; rfl))
  | broadcastMessage text =>
    rw [place] at known
    cases known
    exact .line other (knows.named (by rw [place]; rfl) (by rw [place]; rfl)) (knows.passing text (by rw [place]; rfl))
  | _ => rw [place] at known; cases known

/-- What a handler gives to `send`. -/
theorem ChatSessionInv.handler_sends (inv : ChatSessionInv cfg s) (found : s.room.chat.connections[i]? = some c)
    (move : InterleavedMove s.room i r c c' stage users sends) :
    ∀ send ∈ sends, ServerSays s.taken send.1 send.2 := by
  have staged := inv.room.staged i c found
  have list {header : Bytes}
      (known : header = ascii "<SERVER> Welcome to the chatroom\n<SERVER> Currently connected users are:" ∨
        header = userlistHeader) : ServerSays s.taken i (header ++ userlist s.room.chat.users) := by
    refine .users known inv.room.sorted fun user member => ?_
    obtain ⟨d, at_, named, inside⟩ := inv.room.members user member
    have staged := inv.room.staged user.2 d at_
    rw [← named]
    exact (inv.knows user.2 d at_).named (staged.named inside) (staged.not_nameless inside)
  intro send member
  cases simple : c.pc.isSimple with
  | true =>
    obtain ⟨call, reply, sent, _, known, done, split, _⟩ := move.simple staged simple
    subst split
    cases place : c.pc with
    | welcome | list =>
      rw [place] at known
      cases known
      simp only [ChatState.perform, Option.some.injEq, Prod.mk.injEq, List.append_cancel_left_eq] at done
      rw [← done.2.2.2, List.mem_singleton] at member
      rw [member]
      exact list (by simp [userlistHeader])
    | nameTimedOut | timedOut =>
      rw [place] at known
      cases known
      simp only [ChatState.perform, Option.some.injEq, Prod.mk.injEq, List.append_cancel_left_eq] at done
      rw [← done.2.2.2, List.mem_singleton] at member
      rw [member]
      exact .timedOut
    | getName | loop | getMessage | delete =>
      rw [place] at known
      cases known
      simp only [ChatState.perform, Option.some.injEq, Prod.mk.injEq, List.self_eq_append_right] at done
      rw [done.2.2.2] at member
      cases member
    | _ => rw [place] at simple; cases simple
  | false =>
    obtain ⟨_, _, silent | ⟨message, key, target, at_, rfl⟩⟩ := move.complex simple
    · rw [silent] at member
      cases member
    · rw [at_] at staged
      rw [List.mem_singleton.mp member]
      exact (inv.knows i c found).broadcast (inv.aimed i message key target at_).symm staged.1

/-- The result of `get_message` that becomes the name. -/
theorem InterleavedMove.asked_name {s : InterleavedChat} (move : InterleavedMove s i r c c' stage users sends)
    (staged : c.Staged (s.stage i)) (asks : c.pc = .getName) :
    c'.client.name = r.message ∧ HandlerPc.getName.resume (.received r) = some c'.pc := by
  have call := move.simple staged (by rw [asks]; rfl)
  obtain ⟨call, reply, sent, outside, known, done, _, next, _⟩ := call
  rw [asks] at known next
  cases known
  simp only [ChatState.perform, Option.some.injEq, Prod.mk.injEq] at done
  obtain ⟨rfl, client, _⟩ := done
  exact ⟨by rw [← client], next⟩

theorem InterleavedMove.keeps_name {s : InterleavedChat} (move : InterleavedMove s i r c c' stage users sends)
    (staged : c.Staged (s.stage i)) (other : c.pc ≠ .getName) : c'.client.name = c.client.name := by
  cases simple : c.pc.isSimple with
  | true =>
    obtain ⟨_, _, _, _, _, _, _, _, _, named⟩ := move.simple staged simple
    exact named.resolve_left other
  | false => exact (move.complex simple).1

/-- What `get_message` has given: a string that is not empty, with its chunk, or nothing. -/
def Gives (chunks : List Bytes) (r : Received) : Prop :=
  chunks = [] ∧ r.message = [] ∨ ∃ text, text ≠ [] ∧ chunks = [text] ∧ r = .text text

theorem Knows.name (knows : Knows heardSo c) (naming : c.pc = .getName) (gives : Gives chunks r)
    (named : c'.client.name = r.message) (next : HandlerPc.getName.resume (.received r) = some c'.pc) :
    Knows (heardSo ++ chunks) c' := by
  have nothing : heardSo = [] := knows.unnamed (by rw [naming]; rfl)
  rw [nothing, List.nil_append]
  rcases gives with ⟨rfl, empty⟩ | ⟨text, some_, rfl, rfl⟩
  · have place : c'.pc = .close .unnamed := by simpa [HandlerPc.resume, empty] using next.symm
    refine ⟨fun _ => rfl, fun _ lives => ?_, fun text line => ?_⟩
    · rw [place] at lives
      cases lives
    · rw [place] at line
      cases line
  · have place : c'.pc = .register := by
      simpa [HandlerPc.resume, Received.message, Received.timedOut, some_] using next.symm
    refine ⟨fun unnamed => ?_, fun _ _ => ?_, fun text line => ?_⟩
    · rw [place] at unnamed
      cases unnamed
    · rw [named]
      rfl
    · rw [place] at line
      cases line

theorem Knows.hear (knows : Knows heardSo c) (asks : c.pc = .getMessage) (gives : Gives chunks r)
    (named : c'.client.name = c.client.name) (next : HandlerPc.getMessage.resume (.received r) = some c'.pc) :
    Knows (heardSo ++ chunks) c' := by
  have first := knows.named (by rw [asks]; rfl) (by rw [asks]; rfl)
  refine ⟨fun unnamed => ?_, fun _ _ => ?_, fun text line => ?_⟩
  · cases HandlerPc.resume_named next unnamed
  · rw [named]
    exact head_of_start first (List.prefix_append _ _)
  · rw [HandlerPc.getMessage_lineText next] at line
    have some_ : heardSo ≠ [] := by
      intro empty
      rw [empty] at first
      cases first
    rw [List.tail_append_of_ne_nil some_]
    refine List.mem_append_right _ ?_
    rcases gives with ⟨-, empty⟩ | ⟨message, -, rfl, rfl⟩
    · simp [Received.line, empty] at line
    · unfold Received.line at line
      split at line
      · cases line
      · cases line
        exact List.mem_singleton_self _

/-- A step of a handler, with the chunk that `get_message` has taken in it. -/
theorem Knows.step {s : InterleavedChat} (knows : Knows heardSo c)
    (move : InterleavedMove s i r c c' stage users sends) (staged : c.Staged (s.stage i))
    (deaf : c.pc.hears = false → chunks = []) (hears : c.pc.hears = true → Gives chunks r) :
    Knows (heardSo ++ chunks) c' := by
  by_cases naming : c.pc = .getName
  · obtain ⟨named, next⟩ := move.asked_name staged naming
    exact knows.name naming (hears (by rw [naming]; rfl)) named next
  have named := move.keeps_name staged naming
  by_cases asks : c.pc = .getMessage
  · exact knows.hear asks (hears (by rw [asks]; rfl)) named (move.asked staged asks).2.2
  have silent : c.pc.hears = false := by
    refine Bool.eq_false_of_not_eq_true fun listens => ?_
    rcases HandlerPc.hears_cases listens with here | here
    · exact naming here
    · exact asks here
  rw [deaf silent, List.append_nil]
  rcases move.pc with same | ⟨reply, next⟩
  · exact ⟨same ▸ knows.unnamed, by rw [named, same]; exact knows.named, same ▸ knows.passing⟩
  · refine ⟨fun unnamed => knows.unnamed (HandlerPc.resume_named next unnamed), fun known lives => ?_,
      fun text line => ?_⟩
    · rw [named]
      by_cases unnamed : c.pc.unnamed = true
      · rw [HandlerPc.resume_unnamed next unnamed naming] at known
        cases known
      · refine knows.named (Bool.eq_false_of_not_eq_true unnamed) (Bool.eq_false_of_not_eq_true fun lost => ?_)
        rw [HandlerPc.resume_nameless next lost] at lives
        cases lives
    · rw [HandlerPc.resume_lineText next asks] at line
      cases line

/-- A step of another thread leaves what a handler knows. -/
theorem ChatSessionInv.others {room : InterleavedChat} (inv : ChatSessionInv cfg s) (left : LeftAlone s.room room i)
    (found : room.chat.connections[i]? = some c) : Knows (s.taken i) c := by
  rcases left.place c found with ⟨d, at_, client, same | ⟨waiting, started⟩⟩ | ⟨new, rfl⟩
  · have knows := inv.knows i d at_
    exact ⟨same ▸ knows.unnamed, by rw [client, same]; exact knows.named, same ▸ knows.passing⟩
  · have nothing := (inv.knows i d at_).unnamed (by rw [waiting]; rfl)
    refine ⟨fun _ => nothing, fun named => ?_, fun text line => ?_⟩
    · rw [started] at named
      cases named
    · rw [started] at line
      cases line
  · refine ⟨fun _ => inv.unborn i new, fun named => ?_, fun text line => ?_⟩
    · cases named
    · cases line

theorem ChatSessionInv.background {room : InterleavedChat} {action : ChatAction} (inv : ChatSessionInv cfg s)
    (step : interleavedStep cfg.maxConcurrentClients s.room action = some room)
    (background : ∀ i r, action ≠ .handler i r) : ChatSessionInv cfg { s with room := room } := by
  have left i := interleavedStep_other (i := i) inv.room step (background i)
  have sent : room.chat.sent = s.room.chat.sent := by
    rcases interleavedStep_cases step with ⟨k, r, same, _⟩ | ⟨_, chat, rfl, stepped⟩
    · exact absurd same (background k r)
    · exact (chatStep_background stepped background).2.1
  exact {
    room := inv.room.step step
    up := inv.up
    down := fun i => by rw [inv.down i, ChatSession.sentTo, ChatSession.sentTo, sent]
    chatters := inv.chatters
    unborn := fun i outside => inv.unborn i ((left i).unborn outside)
    knows := fun i c found => inv.others (left i) found
    aimed := fun i message key target sending => inv.aimed i message key target ((left i).stage ▸ sending)
    spoken := by rw [sent]; exact inv.spoken }

theorem ChatterMove.said {c c' : Chatter} {call : ChatterCall} (move : ChatterMove c call c') :
    c.said <+: c'.said ∧ c'.reads = c.reads ++ call.taken := by
  cases move with
  | read => exact ⟨List.prefix_rfl, rfl⟩
  | @hangUp answer _ _ other =>
    refine ⟨List.prefix_rfl, ?_⟩
    cases answer with
    | received chunk => exact absurd rfl (other chunk)
    | _ => exact (List.append_nil _).symm
  | send => exact ⟨List.prefix_append _ _, (List.append_nil _).symm⟩
  | input => exact ⟨List.prefix_rfl, (List.append_nil _).symm⟩
  | leave => exact ⟨List.prefix_rfl, (List.append_nil _).symm⟩

theorem arrives_start {chunk stream : Bytes} (here : arrives chunk stream = true) :
    chunk ≠ [] ∧ chunk <+: stream := by
  simp only [arrives, Bool.and_eq_true, decide_eq_true_eq] at here
  exact ⟨here.1.1, List.isPrefixOf_iff_prefix.mp here.2⟩

/-- Taking a chunk from the front of a stream. -/
theorem flatten_taken {past chunks : List Bytes} {stream : Bytes} (few : chunks = [] ∨ ∃ chunk, chunks = [chunk])
    (here : (chunks.all fun chunk => arrives chunk stream) = true) :
    (past ++ chunks).flatten ++ stream.drop chunks.flatten.length = past.flatten ++ stream := by
  rcases few with rfl | ⟨chunk, rfl⟩
  · simp
  · rw [List.all_cons, List.all_nil, Bool.and_true] at here
    obtain ⟨rest, rfl⟩ := (arrives_start here).2
    simp

theorem ChatSessionInv.chatter {call : ChatterCall} {d : Chatter} (inv : ChatSessionInv cfg s)
    (here : (call.taken.all fun chunk => arrives chunk (s.downlink i)) = true)
    (move : ChatterMove (s.chatters i) call d) :
    ChatSessionInv cfg { s with
      chatters := Function.update s.chatters i d
      uplink := Function.update s.uplink i (s.uplink i ++ (d.said.drop (s.chatters i).said.length).flatten)
      downlink := Function.update s.downlink i ((s.downlink i).drop call.taken.flatten.length) } := by
  obtain ⟨⟨more, said⟩, reads⟩ := move.said
  have few : call.taken = [] ∨ ∃ chunk, call.taken = [chunk] := by
    cases call with
    | read answer =>
      cases answer with
      | received chunk => exact .inr ⟨chunk, rfl⟩
      | _ => exact .inl rfl
    | _ => exact .inl rfl
  refine ⟨inv.room, fun j => ?_, fun j => ?_, fun j => ?_, inv.unborn, inv.knows, inv.aimed, inv.spoken⟩
  · by_cases same : j = i
    · subst same
      simp only [Function.update_self, ← said, List.drop_left, List.flatten_append]
      rw [← List.append_assoc, inv.up j]
    · simp only [Function.update_of_ne same]
      exact inv.up j
  · by_cases same : j = i
    · subst same
      simp only [Function.update_self, reads]
      rw [flatten_taken few here]
      exact inv.down j
    · simp only [Function.update_of_ne same]
      exact inv.down j
  · by_cases same : j = i
    · subst same
      simp only [Function.update_self]
      exact (inv.chatters j).step move
    · simp only [Function.update_of_ne same]
      exact inv.chatters j

/-- The bytes on the way to a handler hold no NUL. -/
theorem ChatSessionInv.clean (inv : ChatSessionInv cfg s) (i : Nat) : 0 ∉ (s.taken i).flatten ++ s.uplink i := by
  rw [inv.up i]
  intro zero
  obtain ⟨message, member, inside⟩ := List.mem_flatten.mp zero
  exact (inv.chatters i).clean message member inside

/-- What `get_message` takes and returns. -/
theorem ChatSessionInv.gives {poll : PollAnswer} {recv : RecvAnswer} (inv : ChatSessionInv cfg s)
    (here : ((takenChunk cfg.timeout poll recv).all fun chunk => arrives chunk (s.uplink i)) = true)
    (result : Client.receive cfg.timeout poll recv = some r) : Gives (takenChunk cfg.timeout poll recv) r := by
  rcases Client.receive_taken result with ⟨chunk, message, taken, reads, rfl⟩ | ⟨taken, empty⟩
  · rw [taken, List.all_cons, List.all_nil, Bool.and_true] at here
    obtain ⟨some_, part⟩ := arrives_start here
    have clean : 0 ∉ chunk := fun zero => inv.clean i (List.mem_append_right _ (part.mem zero))
    rw [Client.getMessage_clean clean] at reads
    split at reads
    · cases reads
      exact .inr ⟨chunk, some_, taken, rfl⟩
    · cases reads
  · exact .inl ⟨taken, empty⟩

theorem Gives.few (gives : Gives chunks r) : chunks = [] ∨ ∃ chunk, chunks = [chunk] := by
  rcases gives with ⟨nothing, -⟩ | ⟨text, -, one, -⟩
  · exact .inl nothing
  · exact .inr ⟨text, one⟩

theorem ChatSessionInv.handler {room : InterleavedChat} (inv : ChatSessionInv cfg s)
    (here : (chunks.all fun chunk => arrives chunk (s.uplink i)) = true) (few : chunks = [] ∨ ∃ chunk, chunks = [chunk])
    (deaf : s.hears i = false → chunks = []) (hears : s.hears i = true → Gives chunks r)
    (step : interleavedStep cfg.maxConcurrentClients s.room (.handler i r) = some room) :
    ChatSessionInv cfg { s with
      room := room
      uplink := Function.update s.uplink i ((s.uplink i).drop chunks.flatten.length)
      downlink := fun j => s.downlink j ++
        (((room.chat.sent.drop s.room.chat.sent.length).filter fun send => send.1 = j).map Prod.snd).flatten
      taken := Function.update s.taken i (s.taken i ++ chunks) } := by
  obtain ⟨c, c', stage, users, sends, found, move, effect⟩ := interleavedHandler_move step
  have listens : s.hears i = c.pc.hears := by simp [ChatSession.hears, found]
  rw [listens] at deaf hears
  have grows (j : Nat) : s.taken j <+: Function.update s.taken i (s.taken i ++ chunks) j := by
    by_cases same : j = i
    · rw [same, Function.update_self]
      exact List.prefix_append _ _
    · rw [Function.update_of_ne same]
  refine ⟨inv.room.step step, fun j => ?_, fun j => ?_, inv.chatters, fun j outside => ?_, fun j d at_ => ?_,
    fun j message key target sending => ?_, ?_⟩
  · by_cases same : j = i
    · subst same
      simp only [Function.update_self]
      rw [flatten_taken few here]
      exact inv.up j
    · simp only [Function.update_of_ne same]
      exact inv.up j
  · rw [← List.append_assoc, inv.down j, ChatSession.sentTo, ChatSession.sentTo, effect.sent, List.drop_left,
      List.filter_append, List.map_append, List.flatten_append]
  · by_cases same : j = i
    · subst same
      rw [effect.here found] at outside
      cases outside
    · rw [effect.there (Ne.symm same)] at outside
      simp only [Function.update_of_ne same]
      exact inv.unborn j outside
  · by_cases same : j = i
    · subst same
      cases (effect.here found).symm.trans at_
      simp only [Function.update_self]
      exact (inv.knows j c found).step move (inv.room.staged j c found) deaf hears
    · rw [effect.there (Ne.symm same)] at at_
      simp only [Function.update_of_ne same]
      exact inv.knows j d at_
  · by_cases same : j = i
    · subst same
      rw [effect.moved] at sending
      cases move with
      | read _ _ other => cases sending; exact other
      | _ => cases sending
    · rw [effect.still (Ne.symm same)] at sending
      exact inv.aimed j message key target sending
  · intro send member
    rw [effect.sent] at member
    rcases List.mem_append.mp member with earlier | new
    · exact (inv.spoken send earlier).mono grows
    · exact (inv.handler_sends found move send new).mono grows

theorem ChatSessionInv.step {action : ChatSessionAction} (inv : ChatSessionInv cfg s)
    (step : chatSessionStep cfg s action = some s') : ChatSessionInv cfg s' := by
  cases action with
  | background action =>
    have other : ∀ i r, action ≠ .handler i r := by
      rintro i r rfl
      cases step
    have moved : ∃ room, interleavedStep cfg.maxConcurrentClients s.room action = some room ∧
        { s with room := room } = s' := by
      cases action with
      | handler i r => exact absurd rfl (other i r)
      | _ => exact Option.map_eq_some_iff.mp step
    obtain ⟨room, moved, rfl⟩ := moved
    exact inv.background moved other
  | handler i poll recv =>
    cases listens : s.hears i with
    | true =>
      simp only [chatSessionStep, ChatSession.handle, listens, if_true] at step
      split at step
      · rename_i here
        obtain ⟨r, result, step⟩ := Option.bind_eq_some_iff.mp step
        obtain ⟨room, moved, step⟩ := Option.bind_eq_some_iff.mp step
        cases step
        have gives := inv.gives here result
        exact inv.handler here gives.few (fun deaf => by rw [listens] at deaf; cases deaf) (fun _ => gives) moved
      · cases step
    | false =>
      simp only [chatSessionStep, ChatSession.handle, listens, Bool.false_eq_true, if_false, List.all_nil,
        if_true] at step
      obtain ⟨r, -, step⟩ := Option.bind_eq_some_iff.mp step
      obtain ⟨room, moved, step⟩ := Option.bind_eq_some_iff.mp step
      cases step
      exact inv.handler rfl (.inl rfl) (fun _ => rfl) (fun hears => by rw [listens] at hears; cases hears) moved
  | chatter i call =>
    simp only [chatSessionStep] at step
    split at step
    · rename_i here
      obtain ⟨d, moved, rfl⟩ := Option.map_eq_some_iff.mp step
      exact inv.chatter here (chatterStep_move moved)
    · cases step

theorem chat_session_inv (reach : (chatSessions cfg).Reach s) : ChatSessionInv cfg s :=
  reach.invariant (fun _ initial => initial ▸ .start cfg) fun _ _ _ _ inv step => inv.step step

/-- Main counts a close in its loop over the remaining users, or of a client that it has just accepted. -/
theorem MainMove.closed_once {chat chat' : ChatState} (move : MainMove chat chat')
    (once : ∀ c ∈ chat.connections, c.closes ≤ 1)
    (open_ : ∀ i visited, chat.main = .closing i visited → chat.isOpen i = true) :
    ∀ c ∈ chat'.connections, c.closes ≤ 1 := by
  cases move with
  | stays connections => rwa [connections]
  | accept connections =>
    rw [connections]
    intro c member
    rcases List.mem_append.mp member with old | new
    · exact once c old
    · rw [List.mem_singleton.mp new]
      exact Nat.zero_le 1
  | spawn _ found connections =>
    rw [connections]
    have mine := once _ (List.mem_of_getElem? found)
    exact forall_mem_set once mine
  | close closing found connections =>
    have none := open_ _ _ closing
    rw [ChatState.isOpen, found, Option.all_some, decide_eq_true_eq] at none
    rw [connections]
    exact forall_mem_set once (by simp [none])

/-- What is left of a step for the state of the server. -/
theorem chatSessionStep_room {action : ChatSessionAction} (step : chatSessionStep cfg s action = some s') :
    s'.room = s.room ∨
      (∃ i poll recv r, action = .handler i poll recv ∧ interleavedHandler s.room i r = some s'.room) ∨
      ∃ background chat, action = .background background ∧ (∀ i r, background ≠ .handler i r) ∧
        s'.room = { s.room with chat := chat } ∧
        chatStep cfg.maxConcurrentClients s.room.chat background = some chat := by
  cases action with
  | background action =>
    have other : ∀ i r, action ≠ .handler i r := by
      rintro i r rfl
      cases step
    have moved : ∃ room, interleavedStep cfg.maxConcurrentClients s.room action = some room ∧
        { s with room := room } = s' := by
      cases action with
      | handler i r => exact absurd rfl (other i r)
      | _ => exact Option.map_eq_some_iff.mp step
    obtain ⟨room, moved, rfl⟩ := moved
    rcases interleavedStep_cases moved with ⟨i, r, same, -⟩ | ⟨-, chat, same, stepped⟩
    · exact absurd same (other i r)
    · exact .inr (.inr ⟨action, chat, rfl, other, same, stepped⟩)
  | handler i poll recv =>
    cases listens : s.hears i with
    | true =>
      simp only [chatSessionStep, ChatSession.handle, listens, if_true] at step
      split at step
      · obtain ⟨r, -, step⟩ := Option.bind_eq_some_iff.mp step
        obtain ⟨room, moved, step⟩ := Option.bind_eq_some_iff.mp step
        cases step
        exact .inr (.inl ⟨i, poll, recv, r, rfl, moved⟩)
      · cases step
    | false =>
      simp only [chatSessionStep, ChatSession.handle, listens, Bool.false_eq_true, if_false, List.all_nil,
        if_true] at step
      obtain ⟨r, -, step⟩ := Option.bind_eq_some_iff.mp step
      obtain ⟨room, moved, step⟩ := Option.bind_eq_some_iff.mp step
      cases step
      exact .inr (.inl ⟨i, poll, recv, r, rfl, moved⟩)
  | chatter i call =>
    simp only [chatSessionStep] at step
    split at step
    · obtain ⟨d, -, rfl⟩ := Option.map_eq_some_iff.mp step
      exact .inl rfl
    · cases step

/-- Where no call is made on a closed client, none is closed twice. -/
theorem chat_closed_once (via : (chatSessions cfg).ReachVia ChatSession.callsOpen s) :
    ∀ c ∈ s.room.chat.connections, c.closes ≤ 1 := by
  refine via.invariant (I := fun s : ChatSession => ∀ c ∈ s.room.chat.connections, c.closes ≤ 1) (fun s initial => ?_)
    fun s action t once open_ step => ?_
  · cases initial
    intro c member
    cases member
  · rcases chatSessionStep_room step with
      same | ⟨i, poll, recv, r, rfl, moved⟩ | ⟨action, chat, rfl, other, same, moved⟩
    · rwa [same]
    · obtain ⟨c, c', stage, users, sends, found, move, effect⟩ := interleavedHandler_move moved
      have mine := once c (List.mem_of_getElem? found)
      rw [effect.connections]
      refine forall_mem_set once ?_
      rcases move.closes with same | ⟨more, outside, place, idle⟩
      · rwa [same]
      · have calls : c.pc.call c.client.name = some .close := by
          cases atPc : c.pc with
          | close => rfl
          | _ => rw [atPc] at place; cases place
        have none : c.closes = 0 := by
          simpa [ChatSession.callsOpen, outside, found, idle, calls, ChatCall.usesSocket] using open_
        omega
    · rw [same]
      cases action with
      | main accepted =>
        refine (mainStep_move moved).2.2.closed_once once fun i visited closing => ?_
        simpa [ChatSession.callsOpen, closing] using open_
      | handler i r => exact absurd rfl (other i r)
      | wakeup | interrupt | interruptNotify =>
        simp only [chatStep] at moved
        split at moved <;> cases moved
        exact once

theorem ServerSays.clean {target : Nat} {text : Bytes} (allowed : ServerSays taken target text)
    (clean : ∀ i, ∀ chunk ∈ taken i, 0 ∉ chunk) : 0 ∉ text := by
  have name {i : Nat} {name : Bytes} (first : (taken i).head? = some name) : 0 ∉ name :=
    clean i name (List.mem_of_mem_head? first)
  cases allowed with
  | @users header users known _ names =>
    have header : 0 ∉ header := by
      rcases known with rfl | rfl
      · decide
      · decide
    have mark : (0 : UInt8) ∉ ascii "\n\t-" := by decide
    have list : 0 ∉ userlist users := by
      intro zero
      obtain ⟨user, member, inside⟩ := List.mem_flatMap.mp zero
      exact (List.mem_append.mp inside).elim mark (name (names user member))
    simp [header, list]
  | timedOut => decide
  | joined _ first =>
    have before : (0 : UInt8) ∉ ascii "<SERVER> Client " := by decide
    have behind : (0 : UInt8) ∉ ascii " has joined the chatroom" := by decide
    simp [before, behind, name first]
  | left _ first =>
    have before : (0 : UInt8) ∉ ascii "<SERVER> Client " := by decide
    have behind : (0 : UInt8) ∉ ascii " has left the chatroom" := by decide
    simp [before, behind, name first]
  | @line i _ text _ first later =>
    have before : (0 : UInt8) ∉ ascii "[" := by decide
    have behind : (0 : UInt8) ∉ ascii "] " := by decide
    have said := clean i text (List.mem_of_mem_tail later)
    simp [namePrefix, before, behind, name first, said]

/-- What is typed, said, heard, sent and shown on one connection, which is closed at most once. -/
structure Carried (cfg : ChatConfig) (s : ChatSession) (i : Nat) : Prop where
  typed : ∃ pieces, ReadPieces 1023 (cfg.typed i) pieces (s.chatters i).stdin ∧
    (s.chatters i).said ++ (s.chatters i).outgoing.toList = pieces.map sanitized
  heard : (s.taken i).flatten ++ s.uplink i = (s.chatters i).said.flatten
  arrived : (s.chatters i).reads.flatten ++ s.downlink i = s.sentTo i
  shown : (s.chatters i).screen = (s.chatters i).reads.flatMap (· ++ [10])
  closedOnce : ∀ c, s.room.chat.connections[i]? = some c → c.closes ≤ 1

/-- In the runs in which the server makes no call on a closed client, whatever is typed: what a client gives to `send`
are the pieces that it has read, each up to its first NUL and then without its last byte, a handler is given exactly
these bytes in this order, and the screen shows exactly what the server has sent, with a newline behind each `read`. -/
theorem chat_session_carries (via : (chatSessions cfg).ReachVia ChatSession.callsOpen s) (i : Nat) :
    Carried cfg s i := by
  have inv := chat_session_inv via.reach
  refine ⟨(inv.chatters i).pieces, inv.up i, inv.down i, (inv.chatters i).screen fun chunk member zero => ?_,
    fun c found => chat_closed_once via c (List.mem_of_getElem? found)⟩
  have taken : ∀ i, ∀ chunk ∈ s.taken i, 0 ∉ chunk := fun i chunk member zero =>
    inv.clean i (List.mem_append_left _ (List.mem_flatten.mpr ⟨chunk, member, zero⟩))
  have arrived : 0 ∈ s.sentTo i := by
    rw [← inv.down i]
    exact List.mem_append_left _ (List.mem_flatten.mpr ⟨chunk, member, zero⟩)
  obtain ⟨message, sent, inside⟩ := List.mem_flatten.mp arrived
  obtain ⟨send, kept, rfl⟩ := List.mem_map.mp sent
  exact (inv.spoken send (List.mem_filter.mp kept).1).clean taken inside

/-- Two clients give their names, and the first one says something. -/
def annAndBob : ChatConfig where
  maxConcurrentClients := 2
  timeout := -1
  typed i := if i = 0 then ascii "ann\nhi\n" else ascii "bob\n"

/-- A client is accepted, reads a part of the welcome and gives its name, which is registered. -/
def introduces (i : Nat) (name : Bytes) : List ChatSessionAction :=
  List.replicate 6 (.background (.main true)) ++
    [.handler i .ready .closed, .chatter i (.read (.received (ascii "<SERVER> Welcome"))), .chatter i .input,
      .chatter i .send, .handler i .ready (.received name)] ++ List.replicate 3 (.handler i .ready .closed)

/-- The first client is in its loop before the second one comes. -/
def annGreetsBob : List ChatSessionAction :=
  introduces 0 (ascii "ann") ++ List.replicate 4 (.handler 0 .ready .closed) ++ introduces 1 (ascii "bob") ++
    [.chatter 0 .input, .chatter 0 .send, .handler 0 .ready (.received (ascii "hi"))] ++
    List.replicate 4 (.handler 0 .ready .closed)

theorem chat_session_carries_ann :
    ∃ s, (chatSessions annAndBob).execVia ChatSession.callsOpen (.start annAndBob) annGreetsBob = some s ∧
      Carried annAndBob s 0 := by
  have run : (chatSessions annAndBob).execVia ChatSession.callsOpen (.start annAndBob) annGreetsBob = some _ := rfl
  exact ⟨_, run, chat_session_carries (System.ReachVia.exec (.start rfl) run) 0⟩

/-- Nobody can be made to say something: a line that the server sends is made of the first chunk that has been received
from some other client and of a later chunk of this client. -/
theorem chat_server_invents_nothing (via : (chatSessions cfg).ReachVia ChatSession.callsOpen s) :
    ∀ send ∈ s.room.chat.sent, ServerSays s.taken send.1 send.2 :=
  (chat_session_inv via.reach).spoken

theorem chat_server_invents_nothing_bob :
    ∃ s, (chatSessions annAndBob).execVia ChatSession.callsOpen (.start annAndBob) annGreetsBob = some s ∧
      ServerSays s.taken 1 (ascii "[ann] hi") := by
  have run : (chatSessions annAndBob).execVia ChatSession.callsOpen (.start annAndBob) annGreetsBob = some _ := rfl
  exact ⟨_, run, chat_server_invents_nothing (System.ReachVia.exec (.start rfl) run) (1, ascii "[ann] hi") (by decide)⟩

/-- Whoever types lines without a NUL has said exactly these lines, once all are read and sent, if and only if none of
them has more than 1022 bytes. -/
theorem chat_lines_said_iff {lines : List Bytes} (reach : (chatSessions cfg).Reach s)
    (typed : cfg.typed i = lines.flatMap (· ++ [10])) (clean : ∀ line ∈ lines, 0 ∉ line ∧ 10 ∉ line)
    (done : (s.chatters i).stdin = [] ∧ (s.chatters i).outgoing = none) :
    (s.chatters i).said = lines ↔ ∀ line ∈ lines, line.length ≤ 1022 :=
  (typed ▸ (chat_session_inv reach).chatters i : ChatterInv (lines.flatMap (· ++ [10])) (s.chatters i)).said_iff clean
    done

theorem chat_lines_said_iff_ann :
    ∃ s, (chatSessions annAndBob).exec (.start annAndBob) annGreetsBob = some s ∧
      (s.chatters 0).said = [ascii "ann", ascii "hi"] := by
  have run : (chatSessions annAndBob).exec (.start annAndBob) annGreetsBob = some _ := rfl
  have reach := System.Reach.exec (.start rfl) run
  exact ⟨_, run, (chat_lines_said_iff (i := 0) reach rfl (by decide) ⟨rfl, rfl⟩).mpr (by decide)⟩

end PCProject
