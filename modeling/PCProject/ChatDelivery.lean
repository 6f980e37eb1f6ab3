import PCProject.ChatPointers

namespace PCProject

/-- A message sent, with the connection whose handler sends it, or what `get_message` gave to the
loop of a handler. -/
inductive RoomEvent
  | sent (sender target : Nat) (message : Bytes)
  | received (i : Nat) (r : Received)

/-- What happens in a step: the messages that it adds, and the result of `get_message`. -/
def roomEvents (s s' : InterleavedChat) : ChatAction → List RoomEvent
  | .handler i r =>
    (s'.chat.sent.drop s.chat.sent.length).map (fun send => .sent i send.1 send.2) ++
      if s.chat.connections[i]?.any fun c => c.pc = .getMessage then [.received i r] else []
  | _ => []

/-- The chat server in small steps with its history. -/
def deliveringChat (maxConcurrentClients : Int) : System (InterleavedChat × List RoomEvent) ChatAction where
  init s := s = (.start, [])
  step s action :=
    (interleavedStep maxConcurrentClients s.1 action).map fun t => (t, s.2 ++ roomEvents s.1 t action)

/-- What `get_message` gave to the loop of a handler, in order. -/
def results (i : Nat) (past : List RoomEvent) : List Received :=
  past.filterMap fun
    | .received k r => if k = i then some r else none
    | _ => none

/-- What the handler of one connection has sent to the client of another, in order. -/
def sentTo (i j : Nat) (past : List RoomEvent) : List Bytes :=
  past.filterMap fun
    | .sent a b message => if a = i ∧ b = j then some message else none
    | _ => none

def namePrefix (name : Bytes) : Bytes := ascii "[" ++ name ++ ascii "] "

/-- The line with which a result is passed on. -/
def Received.line (r : Received) : Option Bytes :=
  if r.timedOut ∨ r.message = [] ∨ r.message = ascii "\\list" ∨ r.message = ascii "\\bye" then none else some r.message

def Received.isList (r : Received) : Bool := !r.timedOut && r.message = ascii "\\list"

/-- The lines of a client named so among what was sent. -/
def linesOf (name : Bytes) (sent : List Bytes) : List Bytes :=
  sent.filter fun message => (namePrefix name).isPrefixOf message

def userlistHeader : Bytes := ascii "<SERVER> Currently connected users are:"

/-- The text that a handler is passing on. -/
def HandlerPc.lineText : HandlerPc → Option Bytes
  | .broadcastMessage message => some message
  | _ => none

/-- While the handler of one connection passes on a line, the client of the other is registered. -/
def staysRegistered (i j : Nat) (s : InterleavedChat × List RoomEvent) (_ : ChatAction) : Bool :=
  !(s.1.chat.connections[i]?.any fun c => c.pc.lineText.isSome) ||
    s.1.chat.connections[j]?.any fun d => lookupUser d.client.name s.1.chat.users = some j

variable {s s' : InterleavedChat} {i j k : Nat} {r : Received} {c c' : Connection} {stage : CallStage} {users : Users}
  {sends : List (Nat × Bytes)} {past past' : List RoomEvent}

theorem deliveringChat_step {maxConcurrentClients : Int} {action : ChatAction}
    (step : (deliveringChat maxConcurrentClients).step (s, past) action = some (s', past')) :
    interleavedStep maxConcurrentClients s action = some s' ∧ past' = past ++ roomEvents s s' action := by
  obtain ⟨t, moved, pair⟩ := Option.map_eq_some_iff.mp step
  cases pair
  exact ⟨moved, rfl⟩

@[simp] theorem results_append (past more : List RoomEvent) :
    results i (past ++ more) = results i past ++ results i more :=
  List.filterMap_append

@[simp] theorem sentTo_append (past more : List RoomEvent) :
    sentTo i j (past ++ more) = sentTo i j past ++ sentTo i j more :=
  List.filterMap_append

theorem roomEvents_handler (found : s.chat.connections[i]? = some c) (effect : StepEffect s i c' stage users sends s') :
    roomEvents s s' (.handler i r) = sends.map (fun send => .sent i send.1 send.2) ++
      if c.pc = .getMessage then [.received i r] else [] := by
  simp [roomEvents, effect.sent, found]

/-- The results of a step of a handler. -/
theorem results_handler (found : s.chat.connections[i]? = some c) (effect : StepEffect s i c' stage users sends s') :
    results k (roomEvents s s' (.handler i r)) = if i = k ∧ c.pc = .getMessage then [r] else [] := by
  have silent : results k (sends.map fun send => .sent i send.1 send.2) = [] := by
    rw [results, List.filterMap_map]
    exact List.filterMap_eq_nil_iff.mpr fun _ _ => rfl
  rw [roomEvents_handler found effect, results_append, silent, List.nil_append]
  by_cases asks : c.pc = .getMessage
  · by_cases mine : i = k <;> simp [results, asks, mine]
  · simp [results, asks]

theorem sentTo_map (sends : List (Nat × Bytes)) : sentTo k j (sends.map fun send => .sent i send.1 send.2) =
    if i = k then (sends.filter fun send => send.1 = j).map Prod.snd else [] := by
  induction sends with
  | nil => simp [sentTo]
  | cons send rest ih =>
    rw [List.map_cons, ← List.singleton_append, sentTo_append, ih]
    by_cases mine : i = k
    · by_cases here : send.1 = j <;> simp [sentTo, mine, here]
    · simp [sentTo, mine]

/-- The sends of a step of a handler. -/
theorem sentTo_handler (found : s.chat.connections[i]? = some c) (effect : StepEffect s i c' stage users sends s') :
    sentTo k j (roomEvents s s' (.handler i r)) =
      if i = k then (sends.filter fun send => send.1 = j).map Prod.snd else [] := by
  have silent : sentTo k j (if c.pc = .getMessage then [.received i r] else []) = [] := by
    split <;> rfl
  rw [roomEvents_handler found effect, sentTo_append, silent, List.append_nil, sentTo_map]

/-- A step that is not the handler's own adds nothing to the history of a connection. -/
theorem roomEvents_other {action : ChatAction} (other : ∀ r, action ≠ .handler k r) :
    results k (roomEvents s s' action) = [] ∧ sentTo k j (roomEvents s s' action) = [] := by
  cases action with
  | handler i r =>
    have apart : i ≠ k := fun same => other r (same ▸ rfl)
    refine ⟨?_, ?_⟩
    · rw [results, roomEvents, List.filterMap_append, List.filterMap_map, List.append_eq_nil_iff]
      refine ⟨List.filterMap_eq_nil_iff.mpr fun _ _ => rfl, ?_⟩
      split
      · simp [apart]
      · rfl
    · rw [roomEvents, sentTo_append, sentTo_map, if_neg apart]
      split <;> rfl
  | _ => exact ⟨rfl, rfl⟩

theorem HandlerPc.resume_lineText {pc pc' : HandlerPc} {reply : Reply} (next : pc.resume reply = some pc')
    (other : pc ≠ .getMessage) : pc'.lineText = none := by
  unfold HandlerPc.resume at next
  repeat' split at next
  all_goals first | exact absurd rfl other | (cases next; rfl) | cases next

theorem HandlerPc.getMessage_lineText {pc' : HandlerPc} (next : HandlerPc.getMessage.resume (.received r) = some pc') :
    pc'.lineText = r.line := by
  simp only [HandlerPc.resume, Option.some.injEq] at next
  subst next
  unfold Received.line
  repeat' split
  all_goals simp_all [HandlerPc.lineText]

/-- The places whose call is one step. -/
def HandlerPc.isSimple : HandlerPc → Bool
  | .welcome | .getName | .nameTimedOut | .loop | .getMessage | .timedOut | .list | .delete => true
  | _ => false

theorem HandlerPc.isSimple_of_call {pc : HandlerPc} {name : Bytes} {call : ChatCall}
    (known : pc.call name = some call) :
    pc.isSimple = call.isSimple := by
  cases pc <;> cases known <;> rfl

/-- What a step from such a place does. -/
theorem InterleavedMove.simple (move : InterleavedMove s i r c c' stage users sends) (staged : c.Staged (s.stage i))
    (simple : c.pc.isSimple = true) : ∃ call reply sent, stage = .outside ∧ c.pc.call c.client.name = some call ∧
      s.chat.perform i c.client r call = some (reply, c'.client, s.chat.users, sent) ∧
      sent = s.chat.sent ++ sends ∧ c.pc.resume reply = some c'.pc ∧ c'.client.isOnline = c.client.isOnline ∧
      (c.pc = .getName ∨ c'.client.name = c.client.name) := by
  cases move with
  | call _ _ known _ done next same named => exact ⟨_, _, _, rfl, known, done, rfl, next, same, named⟩
  | refuse _ _ place | count _ _ place | offline _ _ place | close _ _ place =>
    rw [place] at simple
    cases simple
  | insert at_ | online at_ | erase at_ =>
    rw [at_] at staged
    rw [staged.1] at simple
    cases simple
  | broadcast _ _ known =>
    rw [HandlerPc.isSimple_of_call known] at simple
    cases simple
  | done at_ | skip at_ | read at_ | send at_ =>
    rw [at_] at staged
    rw [HandlerPc.isSimple_of_call staged.1] at simple
    cases simple
  | notify at_ closing =>
    rw [at_] at staged
    obtain ⟨site, place⟩ := staged.closing closing
    rw [place] at simple
    cases simple

/-- What a step from another place does. -/
theorem InterleavedMove.complex (move : InterleavedMove s i r c c' stage users sends)
    (complex : c.pc.isSimple = false) :
    c'.client.name = c.client.name ∧ (c'.pc = c.pc ∨ ∃ reply, c.pc.resume reply = some c'.pc) ∧
      (sends = [] ∨ ∃ message key t, s.stage i = .sending message key t ∧ sends = [(t, message)]) := by
  have pc := move.pc
  cases move with
  | call _ _ known simple =>
    rw [HandlerPc.isSimple_of_call known, simple] at complex
    cases complex
  | send at_ => exact ⟨rfl, pc, Or.inr ⟨_, _, _, at_, rfl⟩⟩
  | _ => exact ⟨rfl, pc, Or.inl rfl⟩

theorem namePrefix_notice {name rest : Bytes} :
    (namePrefix name).isPrefixOf (ascii "<SERVER> Client " ++ rest) = false := by
  simp [namePrefix, ascii, List.isPrefixOf]

theorem header_notice {rest : Bytes} : userlistHeader.isPrefixOf (ascii "<SERVER> Client " ++ rest) = false := by
  simp [userlistHeader, ascii, List.isPrefixOf]

theorem header_line {name rest : Bytes} : userlistHeader.isPrefixOf (namePrefix name ++ rest) = false := by
  simp [userlistHeader, namePrefix, ascii, List.isPrefixOf]

/-- Of the broadcasts only those of `broadcastMessage` are lines, and none is a list of users. -/
theorem HandlerPc.broadcast_text {pc : HandlerPc} {name message : Bytes}
    (known : pc.call name = some (.broadcast message)) :
    userlistHeader.isPrefixOf message = false ∧
      (pc.lineText = none ∧ (namePrefix name).isPrefixOf message = false ∨
        ∃ text, pc.lineText = some text ∧ message = namePrefix name ++ text) := by
  cases pc with
  | broadcastJoin | broadcastLeave =>
    cases known
    rw [List.append_assoc]
    exact ⟨header_notice, Or.inl ⟨rfl, namePrefix_notice⟩⟩
  | broadcastMessage text =>
    cases known
    exact ⟨header_line, Or.inr ⟨text, rfl, rfl⟩⟩
  | _ => cases known

/-- The messages of a handler to its own client come from the server, and only the answers to
`\list` are lists of users. -/
theorem ChatState.own_text {s : ChatState} {name : Bytes} {pc : HandlerPc} {call : ChatCall} {reply : Reply}
    {client client' : Client}
    {sent : List (Nat × Bytes)} (known : pc.call name = some call) (simple : pc.isSimple = true)
    (done : s.perform i client r call = some (reply, client', users, sent)) (split : sent = s.sent ++ sends) :
    sends = [] ∧ pc ≠ .list ∨ ∃ text, sends = [(i, text)] ∧ text.head? = some 60 ∧
      userlistHeader.isPrefixOf text = decide (pc = .list) := by
  cases pc with
  | welcome | nameTimedOut | timedOut | list =>
    cases known; cases done
    rw [List.append_cancel_left_eq] at split
    exact Or.inr ⟨_, split.symm, rfl, by simp [userlistHeader, ascii, List.isPrefixOf]⟩
  | getName | loop | getMessage | delete =>
    cases known; cases done
    exact Or.inl ⟨List.self_eq_append_right.mp split, nofun⟩
  | _ => cases simple

/-- What a handler has sent, apart from its lines. -/
structure SenderInv (i : Nat) (s : InterleavedChat) (past : List RoomEvent) : Prop where
  unborn : s.chat.connections[i]? = none → results i past = [] ∧ ∀ j, sentTo i j past = []
  new : ∀ c, s.chat.connections[i]? = some c → c.pc.unnamed = true →
    results i past = [] ∧ ∀ j, j ≠ i → sentTo i j past = []
  own : ∀ message ∈ sentTo i i past, message.head? = some 60
  others : ∀ j, j ≠ i → ∀ message ∈ sentTo i j past, userlistHeader.isPrefixOf message = false
  replies : ∀ c, s.chat.connections[i]? = some c →
    (sentTo i i past).countP userlistHeader.isPrefixOf + (if c.pc = .list then 1 else 0) =
      (results i past).countP Received.isList
  target : ∀ message key t, s.stage i = .sending message key t → t ≠ i

/-- A step that is not the handler's own. -/
theorem SenderInv.keep (inv : SenderInv i s past) (stage : s'.stage i = s.stage i)
    (sameResults : results i past' = results i past) (sameSent : ∀ j, sentTo i j past' = sentTo i j past)
    (unborn : s'.chat.connections[i]? = none → s.chat.connections[i]? = none)
    (place : ∀ d, s'.chat.connections[i]? = some d →
      (∃ c, s.chat.connections[i]? = some c ∧ (d.pc = c.pc ∨ c.pc = .notStarted ∧ d.pc = .welcome)) ∨
        s.chat.connections[i]? = none ∧ d.pc = .notStarted) : SenderInv i s' past' := by
  refine ⟨?_, ?_, ?_, ?_, ?_, ?_⟩
  · rw [sameResults]
    simp only [sameSent]
    exact fun outside => inv.unborn (unborn outside)
  · rw [sameResults]
    simp only [sameSent]
    intro d at_ unnamed
    rcases place d at_ with ⟨c, found, same | ⟨waiting, _⟩⟩ | ⟨outside, _⟩
    · exact inv.new c found (same ▸ unnamed)
    · exact inv.new c found (by rw [waiting]; rfl)
    · exact ⟨(inv.unborn outside).1, fun j _ => (inv.unborn outside).2 j⟩
  · rw [sameSent]
    exact inv.own
  · simp only [sameSent]
    exact inv.others
  · rw [sameResults, sameSent]
    intro d at_
    rcases place d at_ with ⟨c, found, same | ⟨waiting, started⟩⟩ | ⟨outside, waiting⟩
    · rw [same]
      exact inv.replies c found
    · rw [started, if_neg nofun]
      have before := inv.replies c found
      rwa [waiting, if_neg nofun] at before
    · obtain ⟨nothing, silent⟩ := inv.unborn outside
      rw [waiting, nothing, silent]
      rfl
  · rw [stage]
    exact inv.target

theorem HandlerPc.resume_list {pc pc' : HandlerPc} {reply : Reply} (next : pc.resume reply = some pc')
    (other : pc ≠ .getMessage) : pc' ≠ .list := by
  unfold HandlerPc.resume at next
  repeat' split at next
  all_goals first | exact absurd rfl other | (cases next; nofun) | cases next

theorem HandlerPc.resume_named {pc pc' : HandlerPc} {reply : Reply} (next : pc.resume reply = some pc')
    (unnamed : pc'.unnamed = true) : pc.unnamed = true := by
  unfold HandlerPc.resume at next
  repeat' split at next
  all_goals cases next
  all_goals first | rfl | cases unnamed

theorem HandlerPc.getMessage_list {pc' : HandlerPc} (next : HandlerPc.getMessage.resume (.received r) = some pc') :
    r.isList = decide (pc' = .list) := by
  simp only [HandlerPc.resume, Option.some.injEq] at next
  subst next
  cases r with
  | timeout => rfl
  | text message =>
    by_cases listed : message = ascii "\\list"
    · subst listed
      rfl
    · have plain : Received.isList (.text message) = false := by simp [Received.isList, Received.message, listed]
      rw [plain]
      simp only [Received.timedOut, Received.message, listed, if_false, Bool.false_eq_true]
      refine (decide_eq_false ?_).symm
      split
      · intro same
        cases same
      · by_cases leaves : message = ascii "\\bye" <;> simp [leaves]

/-- What a handler sends in one step to its own client, and to the others. -/
theorem InterleavedMove.texts (move : InterleavedMove s i r c c' stage users sends) (staged : c.Staged (s.stage i))
    (inv : SenderInv i s past) :
    (∀ send ∈ sends, (send.1 = i → send.2.head? = some 60) ∧
      (send.1 ≠ i → c.pc.unnamed = false ∧ userlistHeader.isPrefixOf send.2 = false)) ∧
      ((sends.filter fun send => send.1 = i).map Prod.snd).countP userlistHeader.isPrefixOf =
        if c.pc = .list then 1 else 0 := by
  cases simple : c.pc.isSimple with
  | true =>
    obtain ⟨call, reply, sent, _, known, done, split, _⟩ := move.simple staged simple
    rcases ChatState.own_text known simple done split with ⟨rfl, other⟩ | ⟨text, rfl, server, list⟩
    · exact ⟨nofun, by simp [other]⟩
    · refine ⟨fun send member => ?_, ?_⟩
      · cases List.mem_singleton.mp member
        exact ⟨fun _ => server, fun apart => absurd rfl apart⟩
      · by_cases listed : c.pc = .list <;> simp [list, listed]
  | false =>
    have other : c.pc ≠ .list := by
      intro listed
      rw [listed] at simple
      cases simple
    obtain ⟨_, _, silent | ⟨message, key, t, at_, rfl⟩⟩ := move.complex simple
    · rw [silent]
      exact ⟨nofun, by simp [other]⟩
    · have away := inv.target message key t at_
      rw [at_] at staged
      refine ⟨fun send member => ?_, by simp [away, other]⟩
      cases List.mem_singleton.mp member
      refine ⟨fun own => absurd own away, fun _ => ⟨?_, (HandlerPc.broadcast_text staged.1).1⟩⟩
      cases place : c.pc with
      | notStarted | welcome | getName =>
        have known := staged.1
        rw [place] at known
        cases known
      | _ => rfl

/-- The result of `get_message`, at the place where it is asked for. -/
theorem InterleavedMove.asked (move : InterleavedMove s i r c c' stage users sends) (staged : c.Staged (s.stage i))
    (asks : c.pc = .getMessage) : stage = .outside ∧ c'.client.name = c.client.name ∧
      HandlerPc.getMessage.resume (.received r) = some c'.pc := by
  obtain ⟨call, reply, sent, outside, known, done, _, next, _, named⟩ := move.simple staged (by rw [asks]; rfl)
  rw [asks] at known next named
  cases known
  simp only [ChatState.perform, Option.some.injEq, Prod.mk.injEq] at done
  obtain ⟨rfl, _⟩ := done
  exact ⟨outside, named.resolve_left (by simp), next⟩

/-- A handler comes to answer `\list` exactly when it has received it. -/
theorem InterleavedMove.lists (move : InterleavedMove s i r c c' stage users sends) (staged : c.Staged (s.stage i)) :
    (if c'.pc = .list then 1 else 0) = (if c.pc = .getMessage then [r] else []).countP Received.isList := by
  by_cases asks : c.pc = .getMessage
  · obtain ⟨_, _, next⟩ := move.asked staged asks
    rw [if_pos asks, List.countP_singleton, HandlerPc.getMessage_list next]
    simp
  · have elsewhere : c'.pc ≠ .list := by
      rcases move.pc with same | ⟨reply, next⟩
      · intro listed
        have place : c.pc = .list := same.symm.trans listed
        obtain ⟨_, _, _, _, _, _, _, next, _⟩ := move.simple staged (by rw [place]; rfl)
        exact HandlerPc.resume_list next asks listed
      · exact HandlerPc.resume_list next asks
    rw [if_neg asks, if_neg elsewhere]
    rfl

theorem SenderInv.own_step (inv : SenderInv i s past) (room : RoomInv s) (found : s.chat.connections[i]? = some c)
    (move : InterleavedMove s i r c c' stage users sends) (effect : StepEffect s i c' stage users sends s') :
    SenderInv i s' (past ++ roomEvents s s' (.handler i r)) := by
  have staged := room.staged i c found
  have here := effect.here found
  have moved := effect.moved
  obtain ⟨texts, lists⟩ := move.texts staged inv
  have gained : results i (past ++ roomEvents s s' (.handler i r)) =
      results i past ++ if c.pc = .getMessage then [r] else [] := by
    simp [results_append, results_handler found effect]
  have added : ∀ j, sentTo i j (past ++ roomEvents s s' (.handler i r)) =
      sentTo i j past ++ (sends.filter fun send => send.1 = j).map Prod.snd := by
    intro j
    rw [sentTo_append, sentTo_handler found effect, if_pos rfl]
  refine ⟨?_, ?_, ?_, ?_, ?_, ?_⟩
  · intro outside
    cases here.symm.trans outside
  · intro d at_ unnamed
    cases here.symm.trans at_
    have before : c.pc.unnamed = true := by
      rcases move.pc with same | ⟨reply, next⟩
      · exact same ▸ unnamed
      · exact HandlerPc.resume_named next unnamed
    have notAsked : c.pc ≠ .getMessage := by
      intro asks
      rw [asks] at before
      cases before
    obtain ⟨nothing, silent⟩ := inv.new c found before
    refine ⟨by rw [gained, nothing, if_neg notAsked]; rfl, fun j other => ?_⟩
    rw [added, silent j other, List.nil_append, List.map_eq_nil_iff, List.filter_eq_nil_iff]
    intro send member target
    have away : send.1 ≠ i := fun own => other ((of_decide_eq_true target).symm.trans own)
    have named := ((texts send member).2 away).1
    cases named.symm.trans before
  · rw [added]
    intro message member
    rcases List.mem_append.mp member with old | new
    · exact inv.own message old
    · obtain ⟨send, inside, rfl⟩ := List.mem_map.mp new
      obtain ⟨inside, target⟩ := List.mem_filter.mp inside
      exact (texts send inside).1 (of_decide_eq_true target)
  · intro j other message member
    rw [added] at member
    rcases List.mem_append.mp member with old | new
    · exact inv.others j other message old
    · obtain ⟨send, inside, rfl⟩ := List.mem_map.mp new
      obtain ⟨inside, target⟩ := List.mem_filter.mp inside
      exact ((texts send inside).2 fun own => other ((of_decide_eq_true target).symm.trans own)).2
  · intro d at_
    cases here.symm.trans at_
    have before := inv.replies c found
    rw [gained, added, List.countP_append, List.countP_append, lists, before, move.lists staged]
  · rw [moved]
    intro message key t sending
    subst sending
    exact (move.holds room.sorted (j := t) (decide_eq_true rfl)).1

end PCProject
