import PCProject.ChatEvents
import Mathlib.Data.List.Chain

namespace PCProject

def ChatEvent.heard (e : ChatEvent) : Option Received :=
  match e.call, e.reply with
  | .getName, .received r | .getMessage, .received r => some r
  | _, _ => none

/-- What `get_message` has come back with for a connection, the name first. -/
def heard (i : Nat) (past : List ChatEvent) : List Received :=
  past.filterMap fun e => if e.connection = i then e.heard else none

def ChatEvent.accepts (e : ChatEvent) : Bool :=
  match e.call, e.reply with
  | .register, .answer accepted => accepted
  | _, _ => false

/-- `register_client` has accepted the name of the connection. -/
def wasAccepted (i : Nat) (past : List ChatEvent) : Bool := past.any fun e => e.connection = i && e.accepts

/-- No name, so the handler gives up. -/
def Dismissed (rs : List Received) : Prop := ∃ r, rs = [r] ∧ (r.timedOut = true ∨ r.message = [])

/-- In the loop, which goes on. -/
def Talking (accepted : Bool) (rs : List Received) : Prop :=
  accepted = true ∧ ∃ name later, rs = name :: later ∧ ∀ r ∈ later, r.ends = false

/-- The loop ends with the last result. -/
def Leaving (accepted : Bool) (rs : List Received) : Prop :=
  accepted = true ∧ ∃ name later last, rs = name :: (later ++ [last]) ∧ (∀ r ∈ later, r.ends = false) ∧ last.ends = true

/-- The name is known, but not whether it is accepted, or it is not. -/
def Introduced (rs : List Received) : Prop := ∃ name, rs = [name]

/-- What a handler has heard, for each of its places. -/
def Hearing (pc : HandlerPc) (online accepted : Bool) (rs : List Received) : Prop :=
  match pc with
  | .notStarted | .welcome | .getName => rs = [] ∧ accepted = false ∧ online = false
  | .nameTimedOut | .close .unnamed => Dismissed rs
  | .register | .close .refused => Introduced rs ∧ accepted = false ∧ online = false
  | .broadcastJoin => Introduced rs ∧ accepted = online
  | .loop => if online then Talking accepted rs else Introduced rs ∧ accepted = false ∨ Leaving accepted rs
  | .getMessage | .list | .broadcastMessage _ => Talking accepted rs ∧ online = true
  | .timedOut | .unregister => Leaving accepted rs
  | .broadcastLeave | .close .leaving | .delete => Introduced rs ∧ accepted = false ∨ Leaving accepted rs
  | .returned => Dismissed rs ∨ Introduced rs ∧ accepted = false ∨ Leaving accepted rs

variable {s s' : ChatState} {i : Nat} {r : Received} {c : Connection} {name : Bytes} {past : List ChatEvent}

/-- An event that neither hears nor accepts anything changes nothing. -/
theorem Hearing.silent {pc : HandlerPc} {online accepted : Bool} {rs : List Received} {e : ChatEvent}
    (deaf : e.heard = none)
    (plain : e.accepts = false) (hearing : Hearing pc online accepted rs) :
    Hearing pc online (accepted || e.accepts) (rs ++ e.heard.toList) := by
  rw [deaf, plain, Bool.or_false, Option.toList_none, List.append_nil]
  exact hearing

/-- A call of the handler, with what it hears. -/
theorem Hearing.call {accepted : Bool} {rs : List Received} {call : ChatCall} {reply : Reply} {client : Client}
    {users : Users}
    {sent : List (Nat × Bytes)} {pc : HandlerPc} (hearing : Hearing c.pc c.client.isOnline accepted rs)
    (known : c.pc.call c.client.name = some call)
    (done : s.perform i c.client r call = some (reply, client, users, sent)) (next : c.pc.resume reply = some pc) :
    Hearing pc client.isOnline (accepted || ChatEvent.accepts ⟨i, c.client.name, call, reply⟩)
      (rs ++ (ChatEvent.heard ⟨i, c.client.name, call, reply⟩).toList) := by
  have does := handlerCall known done next
  generalize c.pc = place at hearing does
  cases does with
  | welcome | nameTimedOut | timedOut => exact Hearing.silent rfl rfl hearing
  | delete => exact Hearing.silent rfl rfl (Or.inr hearing)
  | getName next =>
    obtain ⟨rfl, rfl, offline⟩ := hearing
    cases next
    simp only [ChatEvent.accepts, ChatEvent.heard, Bool.or_false, Option.toList_some, List.nil_append]
    split
    · rename_i empty
      exact ⟨r, rfl, Or.inr (List.isEmpty_iff.mp empty)⟩
    · split
      · rename_i late
        exact ⟨r, rfl, Or.inl late⟩
      · exact ⟨⟨r, rfl⟩, rfl, offline⟩
  | refused =>
    obtain ⟨introduced, rfl, offline⟩ := hearing
    exact Hearing.silent rfl rfl ⟨introduced, rfl, offline⟩
  | accepted =>
    obtain ⟨introduced, rfl, _⟩ := hearing
    simp only [ChatEvent.accepts, ChatEvent.heard, Bool.or_true, Option.toList_none, List.append_nil]
    exact ⟨introduced, rfl⟩
  | broadcastJoin =>
    obtain ⟨⟨name, rfl⟩, rfl⟩ := hearing
    refine Hearing.silent rfl rfl ?_
    cases c.client.isOnline with
    | true => exact ⟨rfl, name, [], rfl, by simp⟩
    | false => exact Or.inl ⟨⟨name, rfl⟩, rfl⟩
  | loop =>
    refine Hearing.silent rfl rfl ?_
    cases online : c.client.isOnline with
    | true =>
      rw [online] at hearing
      exact ⟨hearing, rfl⟩
    | false =>
      rw [online] at hearing
      exact hearing
  | getMessage next =>
    obtain ⟨⟨rfl, name, later, rfl, open_⟩, online⟩ := hearing
    simp only [ChatEvent.accepts, ChatEvent.heard, Bool.or_false, Option.toList_some]
    have leaving : r.ends = true → Leaving true (name :: later ++ [r]) :=
      fun ends => ⟨rfl, name, later, r, rfl, open_, ends⟩
    have talking : r.ends = false → Talking true (name :: later ++ [r]) := by
      intro stays
      refine ⟨rfl, name, later ++ [r], rfl, fun q member => ?_⟩
      rcases List.mem_append.mp member with old | new
      · exact open_ q old
      · rwa [List.mem_singleton.mp new]
    rcases HandlerPc.resume_getMessage next with ⟨ends, rfl | rfl⟩ | ⟨stays, rfl | rfl⟩
    · exact leaving ends
    · exact leaving ends
    · exact ⟨talking stays, online⟩
    · exact ⟨talking stays, online⟩
  | unregister => exact Hearing.silent rfl rfl (Or.inr hearing)
  | list | broadcastMessage =>
    obtain ⟨talking, online⟩ := hearing
    refine Hearing.silent rfl rfl ?_
    rw [online]
    exact talking
  | broadcastLeave => exact Hearing.silent rfl rfl hearing

@[simp] theorem heard_append (i : Nat) (past more : List ChatEvent) :
    heard i (past ++ more) = heard i past ++ heard i more :=
  List.filterMap_append

theorem heard_singleton (i j : Nat) (name : Bytes) (call : ChatCall) (reply : Reply) :
    heard j [⟨i, name, call, reply⟩] =
    if i = j then (ChatEvent.heard ⟨i, name, call, reply⟩).toList else [] := by
  by_cases same : i = j
  · cases known : ChatEvent.heard ⟨i, name, call, reply⟩ <;> simp_all [heard]
  · simp [heard, same]

theorem wasAccepted_singleton (i j : Nat) (name : Bytes) (call : ChatCall) (reply : Reply) :
    wasAccepted j [⟨i, name, call, reply⟩] = (decide (i = j) && ChatEvent.accepts ⟨i, name, call, reply⟩) := by
  simp [wasAccepted]

/-- A step accepts a name exactly when it registers a name that is not in the map. -/
theorem HandlerTrace.accepts {events : List ChatEvent} (move : HandlerTrace s i r c s' events) :
    wasAccepted i events = true ↔ c.closing = false ∧ c.pc = .register ∧ ∀ user ∈ s.users, user.1 ≠ c.client.name := by
  cases move with
  | notify closes => simp [wasAccepted, closes]
  | close _ place => simp [wasAccepted, ChatEvent.accepts, place]
  | call idle known done =>
    rw [wasAccepted_singleton, decide_eq_true rfl, Bool.true_and]
    cases place : c.pc with
    | register =>
      rw [place] at known
      cases known
      simp only [ChatState.perform] at done
      split at done
      · rename_i taken
        cases done
        obtain ⟨user, member, same⟩ := List.any_eq_true.mp taken
        constructor
        · intro accepted
          cases accepted
        · rintro ⟨_, _, free⟩
          exact absurd (of_decide_eq_true same) (free user member)
      · rename_i free
        cases done
        refine ⟨fun _ => ⟨idle, rfl, fun user member same => free ?_⟩, fun _ => rfl⟩
        exact List.any_eq_true.mpr ⟨user, member, decide_eq_true same⟩
    | notStarted | returned =>
      rw [place] at known
      cases known
    | _ =>
      rw [place] at known
      cases known
      constructor
      · intro accepted
        cases accepted
      · rintro ⟨_, other, _⟩
        cases other

/-- The handler of connection `i` is about to call `register_client`, and `users` has no entry with its name. -/
def ChatState.RegistersFree (s : ChatState) (i : Nat) : Prop :=
  ∃ c, s.connections[i]? = some c ∧ c.closing = false ∧ c.pc = .register ∧ ∀ user ∈ s.users, user.1 ≠ c.client.name

/-- At the step of a run in which the handler of connection `i` calls `register_client`, its name is free in `users`. -/
def NameFree (maxConcurrentClients : Int) (i : Nat) (schedule : List ChatAction) : Prop :=
  ∃ before r after state, schedule = before ++ .handler i r :: after ∧
    (tracedChat maxConcurrentClients).exec (.start, []) before = some state ∧ state.1.RegistersFree i

/-- One more step of a run. -/
theorem NameFree.concat_iff {maxConcurrentClients : Int} {schedule : List ChatAction} {action : ChatAction}
    {state : ChatState × List ChatEvent}
    (run : (tracedChat maxConcurrentClients).exec (.start, []) schedule = some state) :
    NameFree maxConcurrentClients i (schedule ++ [action]) ↔
      NameFree maxConcurrentClients i schedule ∨ (∃ r, action = .handler i r) ∧ state.1.RegistersFree i := by
  constructor
  · rintro ⟨before, r, after, earlier, split, there, free⟩
    rcases List.eq_nil_or_concat after with rfl | ⟨later, last, rfl⟩
    · obtain ⟨rfl, same⟩ := List.append_inj' split rfl
      cases run.symm.trans there
      exact Or.inr ⟨⟨r, List.singleton_inj.mp same⟩, free⟩
    · rw [List.concat_eq_append, ← List.cons_append, ← List.append_assoc] at split
      exact Or.inl ⟨before, r, later, earlier, (List.append_inj' split rfl).1, there, free⟩
  · rintro (⟨before, r, after, earlier, rfl, there, free⟩ | ⟨⟨r, rfl⟩, free⟩)
    · exact ⟨before, r, after ++ [action], earlier, by simp, there, free⟩
    · exact ⟨schedule, r, [], state, rfl, run, free⟩

theorem wasAccepted_append (i : Nat) (past more : List ChatEvent) :
    wasAccepted i (past ++ more) = (wasAccepted i past || wasAccepted i more) := List.any_append

/-- What a step adds to the history accepts a name exactly when it registers a free one. -/
theorem wasAccepted_step {action : ChatAction} {maxConcurrentClients : Int}
    (step : chatStep maxConcurrentClients s action = some s') :
    wasAccepted i (s.event action).toList = true ↔ (∃ r, action = .handler i r) ∧ s.RegistersFree i := by
  cases action with
  | handler k r =>
    obtain ⟨c, found, _, move⟩ := handlerStep_trace step
    by_cases same : k = i
    · subst same
      rw [move.accepts]
      constructor
      · exact fun free => ⟨⟨r, rfl⟩, c, found, free⟩
      · rintro ⟨_, d, at_, free⟩
        cases found.symm.trans at_
        exact free
    · have others : wasAccepted i (s.event (.handler k r)).toList = false := by
        generalize (s.event (.handler k r)).toList = events at move
        cases move with
        | notify => rfl
        | _ => simp [wasAccepted, same]
      rw [others]
      constructor
      · intro impossible
        cases impossible
      · rintro ⟨⟨_, here⟩, _⟩
        cases here
        exact absurd rfl same
  | _ =>
    constructor
    · intro impossible
      cases impossible
    · rintro ⟨⟨_, impossible⟩, _⟩
      cases impossible

/-- `register_client` has accepted the name if and only if it was free when it was called. -/
theorem wasAccepted_iff {maxConcurrentClients : Int} {schedule : List ChatAction}
    (run : (tracedChat maxConcurrentClients).exec (.start, []) schedule = some (s, past)) :
    wasAccepted i past = true ↔ NameFree maxConcurrentClients i schedule := by
  suffices ∀ state, (tracedChat maxConcurrentClients).exec (.start, []) schedule = some state →
      (tracedChat maxConcurrentClients).exec (.start, []) schedule = some state ∧
        (wasAccepted i state.2 = true ↔ NameFree maxConcurrentClients i schedule) from (this _ run).2
  intro state run
  refine System.exec_invariant (I := fun labels state =>
    (tracedChat maxConcurrentClients).exec (.start, []) labels = some state ∧
      (wasAccepted i state.2 = true ↔ NameFree maxConcurrentClients i labels)) ⟨rfl, ?_⟩ ?_ run
  · constructor
    · intro impossible
      cases impossible
    · rintro ⟨before, r, after, _, split, _⟩
      cases before <;> cases split
  · intro labels ⟨s, past⟩ action ⟨s', past'⟩ ⟨there, same⟩ step
    obtain ⟨moved, rfl⟩ := tracedChat_step step
    refine ⟨?_, ?_⟩
    · rw [System.exec_append there, System.exec, step]
      rfl
    · rw [NameFree.concat_iff there, wasAccepted_append, Bool.or_eq_true, same, wasAccepted_step moved]

/-- What the handler of a connection has heard. -/
structure HearingInv (i : Nat) (s : ChatState) (past : List ChatEvent) : Prop where
  hears : ∀ c, s.connections[i]? = some c → Hearing c.pc c.client.isOnline (wasAccepted i past) (heard i past)
  unborn : s.connections[i]? = none → heard i past = [] ∧ wasAccepted i past = false

/-- `close_` leaves `handle_client` where it was called. -/
theorem Hearing.closed {site : CloseSite} {pc : HandlerPc} {online accepted : Bool} {rs : List Received}
    (hearing : Hearing (.close site) online accepted rs) (next : (HandlerPc.close site).resume .done = some pc) :
    Hearing pc online accepted rs := by
  cases site with
  | unnamed =>
    cases next
    exact Or.inl hearing
  | refused =>
    cases next
    obtain ⟨introduced, rfl, rfl⟩ := hearing
    exact ⟨introduced, rfl⟩
  | leaving =>
    cases next
    exact hearing

theorem heard_ownEvents (i : Nat) (past : List ChatEvent) :
    heard i past = (ownEvents i past).filterMap ChatEvent.heard := by
  simp [heard, ownEvents, List.filterMap_filter]

theorem wasAccepted_ownEvents (i : Nat) (past : List ChatEvent) :
    wasAccepted i past = (ownEvents i past).any ChatEvent.accepts := by
  simp [wasAccepted, ownEvents, List.any_filter]

theorem hearing_rule (i : Nat) : ConnectionRule i fun c es =>
    Hearing c.pc c.client.isOnline (es.any ChatEvent.accepts) (es.filterMap ChatEvent.heard) where
  new := ⟨rfl, rfl, rfl⟩
  spawned c es hearing waiting := by
    rw [waiting] at hearing
    exact hearing
  counted c es hearing := hearing
  notified c es site pc hearing _ place next := by
    rw [place] at hearing
    exact hearing.closed next
  closed c es site hearing _ _ := by
    have silent : ChatEvent.heard ⟨i, c.client.name, .close, .done⟩ = none ∧
      ChatEvent.accepts ⟨i, c.client.name, .close, .done⟩ = false := ⟨rfl, rfl⟩
    simpa [silent] using hearing
  called s r c es call reply client users sent pc hearing _ known done next := by
    rw [List.filterMap_append, filterMap_one, List.any_append, List.any_cons, List.any_nil, Bool.or_false]
    exact hearing.call known done next

theorem hearing_inv {maxConcurrentClients : Int} (reach : (tracedChat maxConcurrentClients).Reach (s, past)) :
    HearingInv i s past := by
  have inv := (hearing_rule i).invariant reach
  refine ⟨fun c found => ?_, fun outside => ?_⟩
  · rw [heard_ownEvents, wasAccepted_ownEvents]
    exact inv.holds c found
  · rw [heard_ownEvents, wasAccepted_ownEvents, inv.unborn outside]
    exact ⟨rfl, rfl⟩

/-- The call that `handle_client` makes for a message. -/
def messageCall (name message : Bytes) : ChatCall :=
  if message.isEmpty then .unregister
  else if message = ascii "\\list" then .sendUserlist (ascii "<SERVER> Currently connected users are:")
  else if message = ascii "\\bye" then .unregister
  else .broadcast (ascii "[" ++ name ++ ascii "] " ++ message)

/-- How a call and the next one of the same handler belong together: the first string is the name from then on,
and each later one is one line or one command. -/
def ChatEvent.LeadsTo (e next : ChatEvent) : Prop :=
  match e.call, e.reply with
  | .getName, .received r => next.name = r.message
  | .getMessage, .received (.text message) => next.name = e.name ∧ next.call = messageCall e.name message
  | _, _ => next.name = e.name

theorem messageCall_ne_close (name message : Bytes) : messageCall name message ≠ .close := by
  intro same
  unfold messageCall at same
  split at same
  · cases same
  · split at same
    · cases same
    · split at same <;> cases same

/-- A call of `close_` answers no message. -/
theorem ChatEvent.LeadsTo.of_close {e : ChatEvent} {call : ChatCall} {reply reply' : Reply}
    (leads : e.LeadsTo ⟨i, name, .close, reply⟩) : e.LeadsTo ⟨i, name, call, reply'⟩ := by
  unfold ChatEvent.LeadsTo at leads ⊢
  split at leads
  · exact leads
  · exact absurd leads.2.symm (messageCall_ne_close _ _)
  · exact leads

/-- After a message the handler is at the call for it. -/
theorem HandlerPc.messageCall_of_resume {pc : HandlerPc} {message : Bytes} {call : ChatCall}
    (next : HandlerPc.getMessage.resume (.received (.text message)) = some pc) (known : pc.call name = some call) :
    call = messageCall name message := by
  have place : pc = if message.isEmpty then .unregister else if message = ascii "\\list" then .list
      else if message = ascii "\\bye" then .unregister else .broadcastMessage message := (Option.some.inj next).symm
  unfold messageCall
  by_cases empty : message.isEmpty = true
  · rw [if_pos empty] at place ⊢
    cases place; cases known
    rfl
  rw [if_neg empty] at place ⊢
  by_cases lists : message = ascii "\\list"
  · rw [if_pos lists] at place ⊢
    cases place; cases known
    rfl
  rw [if_neg lists] at place ⊢
  by_cases bye : message = ascii "\\bye"
  · rw [if_pos bye] at place ⊢
    cases place; cases known
    rfl
  · rw [if_neg bye] at place ⊢
    cases place; cases known
    rfl

/-- Where a call of the handler leads. -/
theorem HandlerCall.leadsTo {place pc : HandlerPc} {call next : ChatCall} {reply reply' : Reply}
    {client client' : Client} {users : Users} (does : HandlerCall s i r client place call reply client' users pc)
    (known : pc.call client'.name = some next) :
    ChatEvent.LeadsTo ⟨i, client.name, call, reply⟩ ⟨i, client'.name, next, reply'⟩ := by
  cases does with
  | getMessage resumed =>
    cases r with
    | text message => exact ⟨rfl, HandlerPc.messageCall_of_resume resumed known⟩
    | timeout => rfl
  | _ => rfl

/-- The calls of a handler so far belong together, and so will the next one. -/
structure Led (i : Nat) (c : Connection) (es : List ChatEvent) : Prop where
  fresh : c.pc = .notStarted → es = []
  chain : es.IsChain ChatEvent.LeadsTo
  next : ∀ e ∈ es.getLast?, ∀ call reply, c.pc.call c.client.name = some call →
    e.LeadsTo ⟨i, c.client.name, call, reply⟩

theorem Led.append {es : List ChatEvent} {call : ChatCall} {reply : Reply} {d : Connection} (led : Led i c es)
    (known : c.pc.call c.client.name = some call) (started : d.pc ≠ .notStarted)
    (leads : ∀ next reply', d.pc.call d.client.name = some next →
      ChatEvent.LeadsTo ⟨i, c.client.name, call, reply⟩ ⟨i, d.client.name, next, reply'⟩) :
    Led i d (es ++ [⟨i, c.client.name, call, reply⟩]) where
  fresh waiting := absurd waiting started
  chain := List.isChain_append.mpr ⟨led.chain, List.isChain_singleton _, fun e last e' here => by
    cases Option.mem_def.mp here
    exact led.next e last call reply known⟩
  next e last := by
    rw [List.getLast?_append, List.getLast?_singleton, Option.some_or, Option.mem_def, Option.some.injEq] at last
    subst last
    exact leads

theorem led_rule (i : Nat) : ConnectionRule i (Led i) where
  new := ⟨fun _ => rfl, List.isChain_nil, nofun⟩
  spawned c es led waiting := by
    rw [led.fresh waiting]
    exact ⟨nofun, List.isChain_nil, nofun⟩
  counted c es led := ⟨led.fresh, led.chain, led.next⟩
  notified c es site pc led _ place next := by
    have started := HandlerPc.resume_ne_notStarted next
    refine ⟨fun waiting => absurd waiting started, led.chain, fun e last call reply _ => ?_⟩
    exact (led.next e last .close .done (by rw [place]; rfl)).of_close
  closed c es site led _ place := by
    refine led.append (by rw [place]; rfl) (by rw [place]; nofun) fun next reply' _ => ?_
    rfl
  called s r c es call reply client users sent pc led _ known done next :=
    led.append known (HandlerPc.resume_ne_notStarted next) fun _ _ more => (handlerCall known done next).leadsTo more

/-- In every run the first string of a connection is its name, and each later one is one line or one command. -/
theorem calls_lead {maxConcurrentClients : Int} (reach : (tracedChat maxConcurrentClients).Reach (s, past)) :
    (ownEvents i past).IsChain ChatEvent.LeadsTo := by
  have inv := (led_rule i).invariant reach
  cases found : s.connections[i]? with
  | none =>
    rw [inv.unborn found]
    exact List.isChain_nil
  | some c => exact (inv.holds c found).chain

/-- Only an accepted client is heard after its name, and only the last result can end the loop. -/
structure HeardInOrder (accepted : Bool) (rs : List Received) : Prop where
  member : rs.length ≤ 1 ∨ accepted = true
  open_ : ∀ r ∈ rs.tail.dropLast, r.ends = false

theorem Introduced.inOrder {accepted : Bool} {rs : List Received} (introduced : Introduced rs) :
    HeardInOrder accepted rs := by
  obtain ⟨name, rfl⟩ := introduced
  exact ⟨Or.inl (Nat.le_refl 1), nofun⟩

theorem Dismissed.inOrder {accepted : Bool} {rs : List Received} (dismissed : Dismissed rs) :
    HeardInOrder accepted rs := by
  obtain ⟨name, rfl, _⟩ := dismissed
  exact ⟨Or.inl (Nat.le_refl 1), nofun⟩

theorem Talking.inOrder {accepted : Bool} {rs : List Received} (talking : Talking accepted rs) :
    HeardInOrder accepted rs := by
  obtain ⟨accepts, name, later, rfl, open_⟩ := talking
  exact ⟨Or.inr accepts, fun r member => open_ r (List.dropLast_subset _ member)⟩

theorem Leaving.inOrder {accepted : Bool} {rs : List Received} (leaving : Leaving accepted rs) :
    HeardInOrder accepted rs := by
  obtain ⟨accepts, name, later, last, rfl, open_, _⟩ := leaving
  refine ⟨Or.inr accepts, ?_⟩
  simpa using open_

theorem Hearing.inOrder {pc : HandlerPc} {online accepted : Bool} {rs : List Received}
    (hearing : Hearing pc online accepted rs) : HeardInOrder accepted rs := by
  have gone : Introduced rs ∧ accepted = false ∨ Leaving accepted rs → HeardInOrder accepted rs := by
    rintro (⟨introduced, _⟩ | leaving)
    · exact introduced.inOrder
    · exact leaving.inOrder
  cases pc with
  | notStarted | welcome | getName =>
    obtain ⟨rfl, _⟩ := hearing
    exact ⟨Or.inl (Nat.zero_le 1), nofun⟩
  | nameTimedOut => exact Dismissed.inOrder hearing
  | register | broadcastJoin => exact hearing.1.inOrder
  | loop =>
    cases online with
    | true => exact Talking.inOrder hearing
    | false => exact gone hearing
  | getMessage | list | broadcastMessage => exact hearing.1.inOrder
  | timedOut | unregister => exact Leaving.inOrder hearing
  | broadcastLeave | delete => exact gone hearing
  | close site =>
    cases site with
    | unnamed => exact Dismissed.inOrder hearing
    | refused => exact hearing.1.inOrder
    | leaving => exact gone hearing
  | returned =>
    rcases hearing with dismissed | left
    · exact dismissed.inOrder
    · exact gone left

end PCProject
