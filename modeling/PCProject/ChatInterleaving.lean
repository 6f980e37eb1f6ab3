import PCProject.ChatTrace
import PCProject.ChatUsers
import Mathlib.Logic.Function.Basic

namespace PCProject

/-- Where a handler is inside `register_client`, `unregister_client` or `broadcast`. A broadcast
knows the key it has visited last, and from reading an entry until the send its client. -/
inductive CallStage
  | outside
  | inserting
  | settingOnline
  | erasing
  | reading (message : Bytes) (visited : Option Bytes)
  | sending (message : Bytes) (key : Bytes) (target : Nat)

/-- The chat server in smaller steps: every operation on the map, every write of `is_online` and
every send of a broadcast is a step of its own. -/
structure InterleavedChat where
  chat : ChatState
  stage : Nat → CallStage

def InterleavedChat.start : InterleavedChat where
  chat := .start
  stage := fun _ => .outside

def InterleavedChat.put (s : InterleavedChat) (i : Nat) (c : Connection) (stage : CallStage) (users : Users)
    (sends : List (Nat × Bytes)) : InterleavedChat where
  chat := { s.chat with users := users, connections := s.chat.connections.set i c, sent := s.chat.sent ++ sends }
  stage := Function.update s.stage i stage

/-- The next step of the handler of connection `i`. -/
def interleavedHandler (s : InterleavedChat) (i : Nat) (r : Received) : Option InterleavedChat := do
  let c ← s.chat.connections[i]?
  if s.chat.main = .exited then none
  else match s.stage i with
  | .outside =>
    match if c.closing then none else c.pc.call c.client.name with
    | some .register =>
      if s.chat.users.any fun user => user.1 = c.client.name then
        let pc ← c.pc.resume (.answer false)
        some (s.put i { c with pc := pc } .outside s.chat.users [])
      else some (s.put i c .inserting s.chat.users [])
    | some .unregister =>
      some (s.put i { c with client := { c.client with isOnline := false } } .erasing s.chat.users [])
    | some (.broadcast message) => some (s.put i c (.reading message none) s.chat.users [])
    | _ =>
      let chat ← handlerStep s.chat i r
      some { s with chat := chat }
  | .inserting => some (s.put i c .settingOnline (assignUser c.client.name i s.chat.users) [])
  | .settingOnline =>
    let pc ← c.pc.resume (.answer true)
    some (s.put i { c with client := { c.client with isOnline := true }, pc := pc } .outside s.chat.users [])
  | .erasing =>
    let pc ← c.pc.resume .done
    some (s.put i { c with pc := pc } .outside (eraseUser c.client.name s.chat.users) [])
  | .reading message visited =>
    match nextUser visited s.chat.users with
    | none =>
      let pc ← c.pc.resume .done
      some (s.put i { c with pc := pc } .outside s.chat.users [])
    | some (key, j) =>
      some (s.put i c (if j = i then .reading message (some key) else .sending message key j) s.chat.users [])
  | .sending message key j => some (s.put i c (.reading message (some key)) s.chat.users [(j, message)])

def interleavedStep (maxConcurrentClients : Int) (s : InterleavedChat) (action : ChatAction) : Option InterleavedChat :=
  match action with
  | .handler i r => interleavedHandler s i r
  | action => (chatStep maxConcurrentClients s.chat action).map fun chat => { s with chat := chat }

def interleavedChat (maxConcurrentClients : Int) : System InterleavedChat ChatAction where
  init s := s = .start
  step := interleavedStep maxConcurrentClients

/-- The calls that are left as one step. -/
def ChatCall.isSimple : ChatCall → Bool
  | .register | .unregister | .broadcast _ | .close => false
  | _ => true

/-- What one step of a handler does to its connection, its stage, the map and the messages. -/
inductive InterleavedMove (s : InterleavedChat) (i : Nat) (r : Received) (c : Connection) :
    Connection → CallStage → Users → List (Nat × Bytes) → Prop
  | refuse {pc : HandlerPc} : s.stage i = .outside → c.closing = false → c.pc = .register →
      (∃ user ∈ s.chat.users, user.1 = c.client.name) → pc = .close .refused →
      InterleavedMove s i r c { c with pc := pc } .outside s.chat.users []
  | count : s.stage i = .outside → c.closing = false → c.pc = .register →
      (∀ user ∈ s.chat.users, user.1 ≠ c.client.name) → InterleavedMove s i r c c .inserting s.chat.users []
  | insert : s.stage i = .inserting →
      InterleavedMove s i r c c .settingOnline (assignUser c.client.name i s.chat.users) []
  | online {pc : HandlerPc} : s.stage i = .settingOnline → c.pc.resume (.answer true) = some pc →
      InterleavedMove s i r c { c with client := { c.client with isOnline := true }, pc := pc } .outside s.chat.users []
  | offline : s.stage i = .outside → c.closing = false → c.pc = .unregister →
      InterleavedMove s i r c { c with client := { c.client with isOnline := false } } .erasing s.chat.users []
  | erase {pc : HandlerPc} : s.stage i = .erasing → c.pc.resume .done = some pc →
      InterleavedMove s i r c { c with pc := pc } .outside (eraseUser c.client.name s.chat.users) []
  | broadcast {message : Bytes} : s.stage i = .outside → c.closing = false →
      c.pc.call c.client.name = some (.broadcast message) →
      InterleavedMove s i r c c (.reading message none) s.chat.users []
  | done {message : Bytes} {visited : Option Bytes} {pc : HandlerPc} : s.stage i = .reading message visited →
      nextUser visited s.chat.users = none → c.pc.resume .done = some pc →
      InterleavedMove s i r c { c with pc := pc } .outside s.chat.users []
  | skip {message key : Bytes} {visited : Option Bytes} : s.stage i = .reading message visited →
      nextUser visited s.chat.users = some (key, i) →
      InterleavedMove s i r c c (.reading message (some key)) s.chat.users []
  | read {message key : Bytes} {visited : Option Bytes} {j : Nat} : s.stage i = .reading message visited →
      nextUser visited s.chat.users = some (key, j) → j ≠ i →
      InterleavedMove s i r c c (.sending message key j) s.chat.users []
  | send {message key : Bytes} {j : Nat} : s.stage i = .sending message key j →
      InterleavedMove s i r c c (.reading message (some key)) s.chat.users [(j, message)]
  | call {call : ChatCall} {reply : Reply} {client : Client} {pc : HandlerPc} {sends : List (Nat × Bytes)} :
      s.stage i = .outside → c.closing = false → c.pc.call c.client.name = some call → call.isSimple = true →
      s.chat.perform i c.client r call = some (reply, client, s.chat.users, s.chat.sent ++ sends) →
      c.pc.resume reply = some pc → client.isOnline = c.client.isOnline →
      c.pc = .getName ∨ client.name = c.client.name →
      InterleavedMove s i r c { c with client := client, pc := pc } .outside s.chat.users sends
  | close {site : CloseSite} : s.stage i = .outside → c.closing = false → c.pc = .close site →
      InterleavedMove s i r c { c with closing := true, closes := c.closes + 1 } .outside s.chat.users []
  | notify {pc : HandlerPc} : s.stage i = .outside → c.closing = true → c.pc.resume .done = some pc →
      InterleavedMove s i r c { c with pc := pc, closing := false } .outside s.chat.users []

variable {maxConcurrentClients : Int} {s s' : InterleavedChat} {i : Nat} {r : Received} {c : Connection}

/-- The simple calls change neither the map nor whether a client is online. -/
theorem ChatState.perform_simple {s : ChatState} {call : ChatCall} {reply : Reply} {client client' : Client}
    {users : Users}
    {sent : List (Nat × Bytes)} (done : s.perform i client r call = some (reply, client', users, sent))
    (simple : call.isSimple = true) : users = s.users ∧ client'.isOnline = client.isOnline ∧
      (call = .getName ∨ client'.name = client.name) ∧ ∃ sends, sent = s.sent ++ sends := by
  cases call with
  | send message => cases done; exact ⟨rfl, rfl, Or.inr rfl, _, rfl⟩
  | sendUserlist header => cases done; exact ⟨rfl, rfl, Or.inr rfl, _, rfl⟩
  | getName => cases done; exact ⟨rfl, rfl, Or.inl rfl, [], by simp⟩
  | getMessage => cases done; exact ⟨rfl, rfl, Or.inr rfl, [], by simp⟩
  | isOnline => cases done; exact ⟨rfl, rfl, Or.inr rfl, [], by simp⟩
  | delete => cases done; exact ⟨rfl, rfl, Or.inr rfl, [], by simp⟩
  | _ => cases simple

theorem Connection.call_of_idle {call : ChatCall}
    (at_ : (if c.closing then none else c.pc.call c.client.name) = some call) :
    c.closing = false ∧ c.pc.call c.client.name = some call := by
  split at at_
  · cases at_
  · rename_i open_
    exact ⟨by simpa using open_, at_⟩

theorem HandlerPc.unregister_of_call {pc : HandlerPc} {name : Bytes} (known : pc.call name = some .unregister) :
    pc = .unregister := by
  cases pc with
  | unregister => rfl
  | _ => cases known

/-- What a step of a handler does to the rest of the state. -/
structure StepEffect (s : InterleavedChat) (i : Nat) (c' : Connection) (stage : CallStage) (users : Users)
    (sends : List (Nat × Bytes)) (s' : InterleavedChat) : Prop where
  stage : s'.stage = Function.update s.stage i stage
  connections : s'.chat.connections = s.chat.connections.set i c'
  users : s'.chat.users = users
  sent : s'.chat.sent = s.chat.sent ++ sends
  main : s'.chat.main = s.chat.main ∨ s'.chat.main = s.chat.main.notifyAll

theorem StepEffect.put (s : InterleavedChat) (i : Nat) (c' : Connection) (stage : CallStage) (users : Users)
    (sends : List (Nat × Bytes)) : StepEffect s i c' stage users sends (s.put i c' stage users sends) :=
  ⟨rfl, rfl, rfl, rfl, Or.inl rfl⟩

section
variable {c' : Connection} {stage : CallStage} {users : Users} {sends : List (Nat × Bytes)}

theorem StepEffect.here (effect : StepEffect s i c' stage users sends s') (found : s.chat.connections[i]? = some c) :
    s'.chat.connections[i]? = some c' := by
  rw [effect.connections]
  exact List.getElem?_set_self (List.getElem?_eq_some_iff.mp found).1

/-- A step of one handler leaves the connections and the stages of the others alone. -/
theorem StepEffect.there {j : Nat} (effect : StepEffect s i c' stage users sends s') (other : i ≠ j) :
    s'.chat.connections[j]? = s.chat.connections[j]? := by
  rw [effect.connections, List.getElem?_set_ne other]

theorem StepEffect.moved (effect : StepEffect s i c' stage users sends s') : s'.stage i = stage := by
  rw [effect.stage, Function.update_self]

theorem StepEffect.still {j : Nat} (effect : StepEffect s i c' stage users sends s') (other : i ≠ j) :
    s'.stage j = s.stage j := by
  rw [effect.stage, Function.update_of_ne (Ne.symm other)]

/-- Main still holds what it holds after the step. -/
theorem StepEffect.holds {j : Nat} (effect : StepEffect s i c' stage users sends s') (holds : s'.chat.main.Holds j) :
    s.chat.main.Holds j := by
  rcases effect.main with same | notified
  · rwa [same] at holds
  · rw [notified] at holds
    exact MainPc.holds_of_notifyAll holds

end

theorem interleavedHandler_move (step : interleavedHandler s i r = some s') :
    ∃ c c' stage users sends, s.chat.connections[i]? = some c ∧ InterleavedMove s i r c c' stage users sends ∧
      StepEffect s i c' stage users sends s' := by
  obtain ⟨c, found, step⟩ := Option.bind_eq_some_iff.mp step
  refine ⟨c, ?_⟩
  split at step
  · cases step
  cases stage : s.stage i with
  | outside =>
    simp only [stage] at step
    split at step
    · rename_i at_
      obtain ⟨idle, place⟩ := Connection.call_of_idle at_
      have place := HandlerPc.register_of_call place
      split at step
      · rename_i taken
        obtain ⟨pc, next, step⟩ := Option.bind_eq_some_iff.mp step
        cases step
        rw [place] at next
        cases next
        exact ⟨_, _, _, _, found, .refuse stage idle place (by simpa using taken) rfl, .put _ _ _ _ _ _⟩
      · rename_i free
        cases step
        have absent : ∀ user ∈ s.chat.users, user.1 ≠ c.client.name := by
          intro user member same
          exact free (List.any_eq_true.mpr ⟨user, member, decide_eq_true same⟩)
        exact ⟨_, _, _, _, found, .count stage idle place absent, .put _ _ _ _ _ _⟩
    · rename_i at_
      obtain ⟨idle, place⟩ := Connection.call_of_idle at_
      cases step
      exact ⟨_, _, _, _, found, .offline stage idle (HandlerPc.unregister_of_call place), .put _ _ _ _ _ _⟩
    · rename_i message at_
      obtain ⟨idle, place⟩ := Connection.call_of_idle at_
      cases step
      exact ⟨_, _, _, _, found, .broadcast stage idle place, .put _ _ _ _ _ _⟩
    · rename_i notRegister notUnregister notBroadcast
      obtain ⟨chat, stepped, whole⟩ := Option.bind_eq_some_iff.mp step
      cases whole
      have still : Function.update s.stage i .outside = s.stage := by rw [← stage, Function.update_eq_self]
      obtain ⟨d, at_, _, move⟩ := handlerStep_move stepped
      cases found.symm.trans at_
      cases move with
      | @notify pc closing next =>
        exact ⟨_, _, _, _, found, .notify stage closing next, still.symm, rfl, rfl, (List.append_nil _).symm,
          Or.inr rfl⟩
      | @close site idle place =>
        exact ⟨_, _, _, _, found, .close stage idle place, still.symm, rfl, rfl, (List.append_nil _).symm, Or.inl rfl⟩
      | @call call reply client users sent pc idle known done next =>
        simp only [idle, Bool.false_eq_true, if_false, known, Option.some.injEq]
          at notRegister notUnregister notBroadcast
        have simple : call.isSimple = true := by
          cases call with
          | register => exact absurd rfl notRegister
          | unregister => exact absurd rfl notUnregister
          | broadcast message => exact absurd rfl (notBroadcast message)
          | close => cases done
          | _ => rfl
        obtain ⟨rfl, online, named, sends, rfl⟩ := ChatState.perform_simple done simple
        have named : c.pc = .getName ∨ client.name = c.client.name :=
          named.imp_left fun call => HandlerPc.getName_of_call (call ▸ known)
        exact ⟨_, _, _, _, found, .call stage idle known simple done next online named, still.symm, rfl, rfl, rfl,
          Or.inl rfl⟩
  | inserting =>
    simp only [stage] at step
    cases step
    exact ⟨_, _, _, _, found, .insert stage, .put _ _ _ _ _ _⟩
  | settingOnline =>
    simp only [stage] at step
    obtain ⟨pc, next, step⟩ := Option.bind_eq_some_iff.mp step
    cases step
    exact ⟨_, _, _, _, found, .online stage next, .put _ _ _ _ _ _⟩
  | erasing =>
    simp only [stage] at step
    obtain ⟨pc, next, step⟩ := Option.bind_eq_some_iff.mp step
    cases step
    exact ⟨_, _, _, _, found, .erase stage next, .put _ _ _ _ _ _⟩
  | reading message visited =>
    simp only [stage] at step
    split at step
    · rename_i last
      obtain ⟨pc, next, step⟩ := Option.bind_eq_some_iff.mp step
      cases step
      exact ⟨_, _, _, _, found, .done stage last next, .put _ _ _ _ _ _⟩
    · rename_i key j entry
      cases step
      by_cases own : j = i
      · subst own
        simp only [if_true]
        exact ⟨_, _, _, _, found, .skip stage entry, .put _ _ _ _ _ _⟩
      · simp only [own, if_false]
        exact ⟨_, _, _, _, found, .read stage entry own, .put _ _ _ _ _ _⟩
  | sending message key j =>
    simp only [stage] at step
    cases step
    exact ⟨_, _, _, _, found, .send stage, .put _ _ _ _ _ _⟩

/-- A step is one of a handler, or leaves the stages, the map and the messages alone. -/
theorem interleavedStep_cases {action : ChatAction} (step : interleavedStep maxConcurrentClients s action = some s') :
    (∃ i r, action = .handler i r ∧ interleavedHandler s i r = some s') ∨
    (∀ i r, action ≠ .handler i r) ∧ ∃ chat, s' = { s with chat := chat } ∧
      chatStep maxConcurrentClients s.chat action = some chat := by
  by_cases handler : ∃ i r, action = .handler i r
  · obtain ⟨i, r, rfl⟩ := handler
    exact Or.inl ⟨i, r, rfl, step⟩
  · have background : ∀ i r, action ≠ .handler i r := fun i r same => handler ⟨i, r, same⟩
    have moved : (chatStep maxConcurrentClients s.chat action).map (fun chat => { s with chat := chat }) = some s' := by
      cases action with
      | handler i r => exact absurd rfl (background i r)
      | _ => exact step
    obtain ⟨chat, stepped, whole⟩ := Option.map_eq_some_iff.mp moved
    exact Or.inr ⟨background, chat, whole.symm, stepped⟩

end PCProject
