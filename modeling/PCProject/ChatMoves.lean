import PCProject.ChatServer

namespace PCProject
variable {s s' : ChatState} {i : Nat} {r : Received} {c : Connection}

/-- What one step of a handler can do: the notification that ends `close_`, the update that
begins it, or any other call. -/
inductive HandlerMove (s : ChatState) (i : Nat) (r : Received) (c : Connection) : ChatState → Prop
  | notify {pc} : c.closing = true → c.pc.resume .done = some pc → HandlerMove s i r c
      { s with main := s.main.notifyAll, connections := s.connections.set i { c with pc := pc, closing := false } }
  | close {site} : c.closing = false → c.pc = .close site → HandlerMove s i r c
      { s with
        liveUsers := s.liveUsers - 1
        connections := s.connections.set i { c with closing := true, closes := c.closes + 1 } }
  | call {call reply client users sent pc} : c.closing = false → c.pc.call c.client.name = some call →
      s.perform i c.client r call = some (reply, client, users, sent) → c.pc.resume reply = some pc →
      HandlerMove s i r c
        { s with
          users := users, sent := sent, connections := s.connections.set i { c with client := client, pc := pc } }

/-- `close_` is called only from the places meant for it. -/
theorem HandlerPc.close_of_call {pc : HandlerPc} {name : Bytes} (call : pc.call name = some .close) :
    ∃ site, pc = .close site := by
  cases pc with
  | close site => exact ⟨site, rfl⟩
  | _ => cases call

theorem handlerStep_move (step : handlerStep s i r = some s') :
    ∃ c, s.connections[i]? = some c ∧ s.main ≠ .exited ∧ HandlerMove s i r c s' := by
  obtain ⟨c, found, step⟩ := Option.bind_eq_some_iff.mp step
  refine ⟨c, found, ?_⟩
  split at step
  · cases step
  rename_i alive
  refine ⟨alive, ?_⟩
  split at step
  · rename_i closing
    obtain ⟨pc, next, step⟩ := Option.bind_eq_some_iff.mp step
    cases step
    exact .notify closing next
  · rename_i open_
    have idle : c.closing = false := by simpa using open_
    obtain ⟨call, known, step⟩ := Option.bind_eq_some_iff.mp step
    split at step
    · obtain ⟨site, place⟩ := HandlerPc.close_of_call known
      cases step
      exact .close idle place
    · obtain ⟨⟨reply, client, users, sent⟩, done, step⟩ := Option.bind_eq_some_iff.mp step
      obtain ⟨pc, next, step⟩ := Option.bind_eq_some_iff.mp step
      cases step
      exact .call idle known done next

/-- What a call of `handle_client` does to its client and to the map, and the place it comes back to. -/
inductive HandlerCall (s : ChatState) (i : Nat) (r : Received) (client : Client) :
    HandlerPc → ChatCall → Reply → Client → Users → HandlerPc → Prop
  | welcome {header : Bytes} : HandlerPc.welcome.call client.name = some (.sendUserlist header) →
      HandlerCall s i r client .welcome (.sendUserlist header) .done client s.users .getName
  | getName {pc : HandlerPc} : HandlerPc.getName.resume (.received r) = some pc →
      HandlerCall s i r client .getName .getName (.received r)
        { client with name := r.message, timedOut := r.timedOut } s.users pc
  | nameTimedOut {text : Bytes} : HandlerPc.nameTimedOut.call client.name = some (.send text) →
      HandlerCall s i r client .nameTimedOut (.send text) .done client s.users (.close .unnamed)
  | refused : (s.users.any fun user => user.1 = client.name) = true →
      HandlerCall s i r client .register .register (.answer false) client s.users (.close .refused)
  | accepted : (s.users.any fun user => user.1 = client.name) = false →
      HandlerCall s i r client .register .register (.answer true) { client with isOnline := true }
        (insertUser client.name i s.users) .broadcastJoin
  | broadcastJoin {text : Bytes} : HandlerPc.broadcastJoin.call client.name = some (.broadcast text) →
      HandlerCall s i r client .broadcastJoin (.broadcast text) .done client s.users .loop
  | loop : HandlerCall s i r client .loop .isOnline (.answer client.isOnline) client s.users
      (if client.isOnline then .getMessage else .broadcastLeave)
  | getMessage {pc : HandlerPc} : HandlerPc.getMessage.resume (.received r) = some pc →
      HandlerCall s i r client .getMessage .getMessage (.received r) { client with timedOut := r.timedOut } s.users pc
  | timedOut {text : Bytes} : HandlerPc.timedOut.call client.name = some (.send text) →
      HandlerCall s i r client .timedOut (.send text) .done client s.users .unregister
  | unregister : HandlerCall s i r client .unregister .unregister .done { client with isOnline := false }
      (eraseUser client.name s.users) .loop
  | list {header : Bytes} : HandlerPc.list.call client.name = some (.sendUserlist header) →
      HandlerCall s i r client .list (.sendUserlist header) .done client s.users .loop
  | broadcastMessage {message text : Bytes} :
      (HandlerPc.broadcastMessage message).call client.name = some (.broadcast text) →
      HandlerCall s i r client (.broadcastMessage message) (.broadcast text) .done client s.users .loop
  | broadcastLeave {text : Bytes} : HandlerPc.broadcastLeave.call client.name = some (.broadcast text) →
      HandlerCall s i r client .broadcastLeave (.broadcast text) .done client s.users (.close .leaving)
  | delete : HandlerCall s i r client .delete .delete .done client s.users .returned

theorem handlerCall {place pc : HandlerPc} {call : ChatCall} {reply : Reply} {client client' : Client} {users : Users}
    {sent : List (Nat × Bytes)} (known : place.call client.name = some call)
    (done : s.perform i client r call = some (reply, client', users, sent)) (next : place.resume reply = some pc) :
    HandlerCall s i r client place call reply client' users pc := by
  cases place with
  | notStarted | returned => cases known
  | close site =>
    cases known
    cases done
  | register =>
    cases known
    simp only [ChatState.perform] at done
    split at done
    · rename_i taken
      cases done; cases next
      exact .refused taken
    · rename_i free
      cases done; cases next
      exact .accepted (Bool.eq_false_iff.mpr free)
  | getName =>
    cases known; cases done
    exact .getName next
  | getMessage =>
    cases known; cases done
    exact .getMessage next
  | welcome | nameTimedOut | broadcastJoin | timedOut | list | broadcastMessage | broadcastLeave =>
    cases known; cases done; cases next
    constructor
    rfl
  | loop | unregister | delete =>
    cases known; cases done; cases next
    constructor

/-- Some thread or the signal handler is between its update and `notify_all`. -/
def ChatState.Notifying (s : ChatState) : Prop :=
  s.interrupted = true ∨ ∃ (i : Nat) (c : Connection), s.connections[i]? = some c ∧ c.closing = true

theorem ChatState.not_notifying (interrupted : s.interrupted = false)
    (closing : ∀ c ∈ s.connections, c.closing = false) :
    ¬s.Notifying := by
  rintro (busy | ⟨i, c, found, busy⟩)
  · rw [interrupted] at busy
    cases busy
  · rw [closing c (List.mem_of_getElem? found)] at busy
    cases busy

theorem MainPc.notifyAll_asleep {pc : MainPc} : pc.notifyAll ≠ .asleep := by
  unfold notifyAll
  split
  · exact nofun
  · assumption

theorem MainPc.notifyAll_eq {pc other : MainPc} (same : pc.notifyAll = other) (apart : other ≠ .testing) :
    pc = other := by
  unfold notifyAll at same
  split at same
  · exact absurd same.symm apart
  · exact same

end PCProject
