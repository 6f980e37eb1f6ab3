import PCProject.ChatMoves

namespace PCProject

/-- A call of a handler, the name its client had then, and what the call returned. -/
structure ChatEvent where
  connection : Nat
  name : Bytes
  call : ChatCall
  reply : Reply

/-- The call that a step makes. The second step of `close_` makes none. -/
def ChatState.event (s : ChatState) : ChatAction → Option ChatEvent
  | .handler i r => do
    let c ← s.connections[i]?
    if c.closing then none
    else
      let call ← c.pc.call c.client.name
      match call with
      | .close => some ⟨i, c.client.name, .close, .done⟩
      | call =>
        let (reply, _) ← s.perform i c.client r call
        some ⟨i, c.client.name, call, reply⟩
  | _ => none

/-- The results after which the loop asks for no more. -/
def Received.ends (r : Received) : Bool := r.timedOut || r.message = [] || r.message = ascii "\\bye"

/-- The chat server with the calls made so far. -/
def tracedChat (maxConcurrentClients : Int) : System (ChatState × List ChatEvent) ChatAction where
  init s := s = (.start, [])
  step s action :=
    (chatStep maxConcurrentClients s.1 action).map fun t => (t, s.2 ++ (s.1.event action).toList)

variable {maxConcurrentClients : Int} {s s' : ChatState} {i : Nat} {r : Received} {c : Connection}

/-- Where the loop of `handle_client` goes with a result: away from its client, or to an answer. -/
theorem HandlerPc.resume_getMessage {pc : HandlerPc} (next : HandlerPc.getMessage.resume (.received r) = some pc) :
    r.ends = true ∧ (pc = .timedOut ∨ pc = .unregister) ∨
      r.ends = false ∧ (pc = .list ∨ pc = .broadcastMessage r.message) := by
  cases r with
  | timeout =>
    cases next
    exact Or.inl ⟨rfl, Or.inl rfl⟩
  | text message =>
    by_cases empty : message = []
    · subst empty
      cases next
      exact Or.inl ⟨rfl, Or.inr rfl⟩
    · by_cases bye : message = ascii "\\bye"
      · subst bye
        cases next
        exact Or.inl ⟨rfl, Or.inr rfl⟩
      · refine Or.inr ⟨by simp [Received.ends, Received.timedOut, Received.message, empty, bye], ?_⟩
        simp only [resume, Received.timedOut, Received.message, Bool.false_eq_true, if_false, List.isEmpty_iff, empty,
          bye, Option.some.injEq] at next
        subst next
        split
        · exact Or.inl rfl
        · exact Or.inr rfl

theorem tracedChat_step {past past' : List ChatEvent} {action : ChatAction}
    (step : (tracedChat maxConcurrentClients).step (s, past) action = some (s', past')) :
    chatStep maxConcurrentClients s action = some s' ∧ past' = past ++ (s.event action).toList := by
  obtain ⟨t, moved, pair⟩ := Option.map_eq_some_iff.mp step
  cases pair
  exact ⟨moved, rfl⟩

/-- What a step of a handler does, together with the event it leaves. -/
inductive HandlerTrace (s : ChatState) (i : Nat) (r : Received) (c : Connection) : ChatState → List ChatEvent → Prop
  | notify {pc : HandlerPc} : c.closing = true → c.pc.resume .done = some pc → HandlerTrace s i r c
      { s with main := s.main.notifyAll, connections := s.connections.set i { c with pc := pc, closing := false } } []
  | close {site : CloseSite} : c.closing = false → c.pc = .close site → HandlerTrace s i r c
      { s with
        liveUsers := s.liveUsers - 1
        connections := s.connections.set i { c with closing := true, closes := c.closes + 1 } }
      [⟨i, c.client.name, .close, .done⟩]
  | call {call : ChatCall} {reply : Reply} {client : Client} {users : Users} {sent : List (Nat × Bytes)}
      {pc : HandlerPc} : c.closing = false → c.pc.call c.client.name = some call →
      s.perform i c.client r call = some (reply, client, users, sent) → c.pc.resume reply = some pc →
      HandlerTrace s i r c
        { s with
          users := users, sent := sent, connections := s.connections.set i { c with client := client, pc := pc } }
        [⟨i, c.client.name, call, reply⟩]

theorem handlerStep_trace (step : handlerStep s i r = some s') :
    ∃ c, s.connections[i]? = some c ∧ s.main ≠ .exited ∧
      HandlerTrace s i r c s' (s.event (.handler i r)).toList := by
  obtain ⟨c, found, alive, move⟩ := handlerStep_move step
  refine ⟨c, found, alive, ?_⟩
  cases move with
  | notify closing next =>
    have silent : s.event (.handler i r) = none := by simp [ChatState.event, found, closing]
    rw [silent]
    exact .notify closing next
  | close idle place =>
    have noted : s.event (.handler i r) = some ⟨i, c.client.name, .close, .done⟩ := by
      simp [ChatState.event, found, idle, place, HandlerPc.call]
    rw [noted]
    exact .close idle place
  | @call call reply client users sent pc idle known done next =>
    have noted : s.event (.handler i r) = some ⟨i, c.client.name, call, reply⟩ := by
      simp only [ChatState.event, found, idle, known, bind, Option.bind]
      cases call with
      | close => cases done
      | _ => simp [done]
    rw [noted]
    exact .call idle known done next

theorem HandlerPc.register_of_call {pc : HandlerPc} {name : Bytes} (known : pc.call name = some .register) :
    pc = .register := by
  cases pc with
  | register => rfl
  | _ => cases known

theorem HandlerPc.resume_ne_notStarted {pc pc' : HandlerPc} {reply : Reply} (next : pc.resume reply = some pc') :
    pc' ≠ .notStarted := by
  unfold HandlerPc.resume at next
  repeat' split at next
  all_goals cases next
  all_goals nofun

theorem HandlerPc.getName_of_call {pc : HandlerPc} {name : Bytes} (known : pc.call name = some .getName) :
    pc = .getName := by
  cases pc with
  | getName => rfl
  | _ => cases known

/-- Main has this connection in its hands: no handler runs for it, or not yet. -/
def MainPc.Holds (pc : MainPc) (i : Nat) : Prop :=
  match pc with
  | .counted j | .spawning j | .closing j none => j = i
  | _ => False

theorem MainPc.holds_of_notifyAll {pc : MainPc} (holds : pc.notifyAll.Holds i) : pc.Holds i := by
  unfold notifyAll at holds
  split at holds
  · exact holds.elim
  · exact holds

/-- What a step of main or of the signal handler does to the connections. -/
inductive MainMove (s s' : ChatState) : Prop
  | stays : s'.connections = s.connections → (∀ i, s'.main.Holds i → s.main.Holds i) → MainMove s s'
  | accept : s'.connections = s.connections ++ [({} : Connection)] → s'.main = .counted s.connections.length →
      MainMove s s'
  | spawn {i : Nat} {c : Connection} : s.main = .spawning i → s.connections[i]? = some c →
      s'.connections = s.connections.set i { c with pc := .welcome } → s'.main = .loop → MainMove s s'
  | close {i : Nat} {c : Connection} {visited : Option Bytes} : s.main = .closing i visited →
      s.connections[i]? = some c → s'.connections = s.connections.set i { c with closes := c.closes + 1 } →
      s'.main = .notifying visited → MainMove s s'

/-- The connections keep their clients, and their handlers stay where they are but for the one that
main starts. A new connection has a new client. -/
theorem MainMove.client {j : Nat} {d : Connection} (move : MainMove s s') (found : s'.connections[j]? = some d) :
    (∃ c, s.connections[j]? = some c ∧ d.client = c.client ∧ (d.pc = c.pc ∨ s.main = .spawning j ∧ d.pc = .welcome)) ∨
      s.connections[j]? = none ∧ d = {} := by
  have set : ∀ {i : Nat} {c c' : Connection}, s.connections[i]? = some c → s'.connections = s.connections.set i c' →
      c'.client = c.client → (i = j → c'.pc = c.pc ∨ s.main = .spawning j ∧ c'.pc = .welcome) →
      ∃ c, s.connections[j]? = some c ∧ d.client = c.client ∧
        (d.pc = c.pc ∨ s.main = .spawning j ∧ d.pc = .welcome) := by
    intro i c c' at_ connections client place
    rw [connections] at found
    by_cases same : i = j
    · subst same
      rw [List.getElem?_set_self (List.getElem?_eq_some_iff.mp at_).1] at found
      cases found
      exact ⟨c, at_, client, place rfl⟩
    · rw [List.getElem?_set_ne same] at found
      exact ⟨d, found, rfl, Or.inl rfl⟩
  cases move with
  | stays connections held => exact Or.inl ⟨d, connections ▸ found, rfl, Or.inl rfl⟩
  | accept connections main =>
    rw [connections, List.getElem?_append] at found
    split at found
    · exact Or.inl ⟨d, found, rfl, Or.inl rfl⟩
    · rename_i beyond
      rw [List.getElem?_singleton] at found
      split at found
      · cases found
        exact Or.inr ⟨List.getElem?_eq_none (Nat.not_lt.mp beyond), rfl⟩
      · cases found
  | spawn spawning at_ connections main =>
    exact Or.inl (set at_ connections rfl fun same => Or.inr ⟨same ▸ spawning, rfl⟩)
  | close closing at_ connections main => exact Or.inl (set at_ connections rfl fun _ => Or.inl rfl)

theorem MainMove.born {j : Nat} (move : MainMove s s') (found : s.connections[j]? = some c) :
    ∃ d, s'.connections[j]? = some d := by
  have inside := (List.getElem?_eq_some_iff.mp found).1
  have born : j < s'.connections.length := by
    cases move with
    | stays connections => rwa [connections]
    | accept connections =>
      rw [connections, List.length_append]
      omega
    | spawn _ _ connections | close _ _ connections => rwa [connections, List.length_set]
  exact ⟨_, List.getElem?_eq_getElem born⟩

theorem mainStep_move {accepted : Bool} (step : mainStep maxConcurrentClients s accepted = some s') :
    s'.users = s.users ∧ s'.sent = s.sent ∧ MainMove s s' := by
  unfold mainStep at step
  split at step
  · cases step
    exact ⟨rfl, rfl, .stays rfl fun i => by dsimp only; split <;> exact False.elim⟩
  · cases step
    exact ⟨rfl, rfl, .stays rfl fun i => by dsimp only; split <;> exact False.elim⟩
  · cases step
    exact ⟨rfl, rfl, .stays rfl fun _ => False.elim⟩
  · cases step
  · cases step
    exact ⟨rfl, rfl, .stays rfl fun i => by dsimp only; split <;> exact False.elim⟩
  · split at step
    · cases step
      exact ⟨rfl, rfl, .accept rfl rfl⟩
    · cases step
      exact ⟨rfl, rfl, .stays rfl fun _ => False.elim⟩
  · rename_i counted
    cases step
    refine ⟨rfl, rfl, .stays rfl fun i => ?_⟩
    rw [counted]
    dsimp only
    split <;> exact id
  · rename_i i spawning
    obtain ⟨c, found, step⟩ := Option.bind_eq_some_iff.mp step
    cases step
    exact ⟨rfl, rfl, .spawn spawning found rfl rfl⟩
  · rename_i i visited closing
    obtain ⟨c, found, step⟩ := Option.bind_eq_some_iff.mp step
    cases step
    exact ⟨rfl, rfl, .close closing found rfl rfl⟩
  · cases step
    exact ⟨rfl, rfl, .stays rfl fun _ => False.elim⟩
  · split at step
    · cases step
      exact ⟨rfl, rfl, .stays rfl fun _ => False.elim⟩
    · cases step
      exact ⟨rfl, rfl, .stays rfl fun _ => False.elim⟩
  · cases step

/-- A step that is not one of a handler. -/
theorem chatStep_background {action : ChatAction} (step : chatStep maxConcurrentClients s action = some s')
    (background : ∀ i r, action ≠ .handler i r) : s'.users = s.users ∧ s'.sent = s.sent ∧ MainMove s s' := by
  cases action with
  | main accepted => exact mainStep_move step
  | wakeup =>
    simp only [chatStep] at step
    split at step
    · cases step
      exact ⟨rfl, rfl, .stays rfl fun _ => False.elim⟩
    · cases step
  | handler i r => exact absurd rfl (background i r)
  | interrupt =>
    simp only [chatStep] at step
    split at step
    · cases step
    · cases step
      exact ⟨rfl, rfl, .stays rfl fun _ => id⟩
  | interruptNotify =>
    simp only [chatStep] at step
    split at step
    · cases step
      exact ⟨rfl, rfl, .stays rfl fun _ => MainPc.holds_of_notifyAll⟩
    · cases step

/-- Main closes a registered client only in the loop over the remaining users. -/
theorem mainStep_closing {accepted : Bool} {key : Bytes} (step : mainStep maxConcurrentClients s accepted = some s')
    (closing : s'.main = .closing i (some key)) :
    ∃ visited, s.main = .stopping visited ∧ nextUser visited s.users = some (key, i) := by
  cases place : s.main with
  | loop | ready =>
    simp only [mainStep, place] at step
    cases step
    dsimp only at closing
    split at closing <;> cases closing
  | testing | counted =>
    simp only [mainStep, place] at step
    cases step
    dsimp only at closing
    split at closing <;> cases closing
  | falling | notifying =>
    simp only [mainStep, place] at step
    cases step
    cases closing
  | asleep | exited =>
    simp only [mainStep, place] at step
    cases step
  | accepting =>
    simp only [mainStep, place] at step
    split at step <;> (cases step; cases closing)
  | spawning | closing =>
    simp only [mainStep, place] at step
    obtain ⟨c, _, step⟩ := Option.bind_eq_some_iff.mp step
    cases step
    cases closing
  | stopping visited =>
    simp only [mainStep, place] at step
    refine ⟨visited, rfl, ?_⟩
    split at step
    · cases step
      cases closing
    · rename_i next
      cases step
      cases closing
      exact next

theorem chatStep_closing {action : ChatAction} {key : Bytes} (step : chatStep maxConcurrentClients s action = some s')
    (background : ∀ i r, action ≠ .handler i r) (closing : s'.main = .closing i (some key)) :
    s.main = .closing i (some key) ∨ ∃ accepted visited, action = .main accepted ∧ s.main = .stopping visited ∧
      nextUser visited s.users = some (key, i) := by
  cases action with
  | main accepted =>
    obtain ⟨visited, place, next⟩ := mainStep_closing step closing
    exact Or.inr ⟨accepted, visited, rfl, place, next⟩
  | handler j r => exact absurd rfl (background j r)
  | wakeup =>
    simp only [chatStep] at step
    split at step
    · cases step
      cases closing
    · cases step
  | interrupt =>
    simp only [chatStep] at step
    split at step
    · cases step
    · cases step
      exact Or.inl closing
  | interruptNotify =>
    simp only [chatStep] at step
    split at step
    · cases step
      exact Or.inl (MainPc.notifyAll_eq closing nofun)
    · cases step

end PCProject
