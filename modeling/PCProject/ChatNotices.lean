import PCProject.ChatTrace
import PCProject.ChatUsers
import PCProject.ConnectionAccounting

namespace PCProject

def joinNotice (name : Bytes) : Bytes := ascii "<SERVER> Client " ++ name ++ ascii " has joined the chatroom"

def leaveNotice (name : Bytes) : Bytes := ascii "<SERVER> Client " ++ name ++ ascii " has left the chatroom"

/-- What a handler does about the membership of its client. Every broadcast that is not a notice
is a line of the client. -/
inductive Presence
  | accepted
  | refused
  | joined
  | line
  | unregistered
  | left
  deriving DecidableEq

def ChatEvent.presence (e : ChatEvent) : Option Presence :=
  match e.call, e.reply with
  | .register, .answer yes => some (if yes then .accepted else .refused)
  | .broadcast message, _ =>
    some (if message = joinNotice e.name then .joined else if message = leaveNotice e.name then .left else .line)
  | .unregister, _ => some .unregistered
  | _, _ => none

/-- The presence of a connection in the calls made so far. -/
def presences (i : Nat) (past : List ChatEvent) : List Presence :=
  past.filterMap fun e => if e.connection = i then e.presence else none

/-- An accepted connection that stays for some lines. -/
def stay (lines : Nat) : List Presence := .accepted :: .joined :: List.replicate lines .line

theorem stay_succ (lines : Nat) : stay lines ++ [.line] = stay (lines + 1) := by
  simp [stay, List.replicate_succ']

/-- Where a connection is in its presence, for each place of its handler. -/
def Trail (pc : HandlerPc) (online : Bool) (xs : List Presence) : Prop :=
  match pc with
  | .notStarted | .welcome | .getName | .nameTimedOut | .register | .close .unnamed => xs = [] ∧ online = false
  | .broadcastJoin => xs = [.accepted] ∧ online = true ∨ xs = [.refused] ∧ online = false
  | .close .refused => xs = [.refused] ∧ online = false
  | .loop =>
    (∃ lines, xs = stay lines) ∧ online = true ∨
      ((∃ lines, xs = stay lines ++ [.unregistered]) ∨ xs = [.refused, .joined]) ∧ online = false
  | .getMessage | .timedOut | .unregister | .list | .broadcastMessage _ => (∃ lines, xs = stay lines) ∧ online = true
  | .broadcastLeave => ((∃ lines, xs = stay lines ++ [.unregistered]) ∨ xs = [.refused, .joined]) ∧ online = false
  | .close .leaving | .delete =>
    ((∃ lines, xs = stay lines ++ [.unregistered, .left]) ∨ xs = [.refused, .joined, .left]) ∧ online = false
  | .returned =>
    (xs = [] ∨ (∃ lines, xs = stay lines ++ [.unregistered, .left]) ∨ xs = [.refused, .joined, .left]) ∧ online = false

variable {s s' : ChatState} {i : Nat} {r : Received} {c : Connection} {name message : Bytes}

theorem joinNotice_ne_leaveNotice : leaveNotice name ≠ joinNotice name := by
  intro same
  have lengths := congrArg List.length same
  simp [joinNotice, leaveNotice, ascii] at lengths

theorem line_ne_joinNotice : ascii "[" ++ name ++ ascii "] " ++ message ≠ joinNotice name := by
  intro same
  have first := congrArg List.head? same
  simp [joinNotice, ascii] at first

theorem line_ne_leaveNotice : ascii "[" ++ name ++ ascii "] " ++ message ≠ leaveNotice name := by
  intro same
  have first := congrArg List.head? same
  simp [leaveNotice, ascii] at first

theorem presence_joinNotice : ChatEvent.presence ⟨i, name, .broadcast (joinNotice name), .done⟩ = some .joined := by
  simp [ChatEvent.presence]

theorem presence_leaveNotice : ChatEvent.presence ⟨i, name, .broadcast (leaveNotice name), .done⟩ = some .left := by
  simp [ChatEvent.presence, joinNotice_ne_leaveNotice]

theorem presence_line :
    ChatEvent.presence ⟨i, name, .broadcast (ascii "[" ++ name ++ ascii "] " ++ message), .done⟩ = some .line := by
  simp [ChatEvent.presence, -List.append_assoc, line_ne_joinNotice, line_ne_leaveNotice]

/-- An event that is no part of the trail changes nothing. -/
theorem Trail.silent {pc : HandlerPc} {online : Bool} {xs : List Presence} {e : ChatEvent}
    (quiet : e.presence = none) (trail : Trail pc online xs) : Trail pc online (xs ++ e.presence.toList) := by
  rw [quiet, Option.toList_none, List.append_nil]
  exact trail

/-- A call of the handler moves its connection along the trail. -/
theorem Trail.call {xs : List Presence} {call : ChatCall} {reply : Reply} {client : Client} {users : Users}
    {sent : List (Nat × Bytes)} {pc : HandlerPc} (trail : Trail c.pc c.client.isOnline xs)
    (known : c.pc.call c.client.name = some call)
    (done : s.perform i c.client r call = some (reply, client, users, sent)) (next : c.pc.resume reply = some pc) :
    Trail pc client.isOnline (xs ++ (ChatEvent.presence ⟨i, c.client.name, call, reply⟩).toList) := by
  have does := handlerCall known done next
  generalize c.pc = place at trail does
  cases does with
  | welcome | nameTimedOut | timedOut => exact .silent rfl trail
  | getName next =>
    cases next
    refine .silent rfl ?_
    split
    · exact trail
    · split
      · exact trail
      · exact trail
  | refused =>
    obtain ⟨rfl, offline⟩ := trail
    exact ⟨rfl, offline⟩
  | accepted =>
    obtain ⟨rfl, _⟩ := trail
    exact Or.inl ⟨rfl, rfl⟩
  | broadcastJoin notice =>
    cases notice
    have joined : ChatEvent.presence ⟨i, c.client.name, .broadcast (joinNotice c.client.name), .done⟩ = some .joined :=
      presence_joinNotice
    unfold joinNotice at joined
    rw [joined]
    rcases trail with ⟨rfl, online⟩ | ⟨rfl, offline⟩
    · exact Or.inl ⟨⟨0, rfl⟩, online⟩
    · exact Or.inr ⟨Or.inr rfl, offline⟩
  | loop =>
    refine .silent rfl ?_
    rcases trail with ⟨staying, online⟩ | ⟨gone, offline⟩
    · rw [online]
      exact ⟨staying, rfl⟩
    · rw [offline]
      exact ⟨gone, rfl⟩
  | getMessage next =>
    refine .silent rfl ?_
    rcases HandlerPc.resume_getMessage next with ⟨_, rfl | rfl⟩ | ⟨_, rfl | rfl⟩ <;> exact trail
  | unregister =>
    obtain ⟨⟨lines, rfl⟩, _⟩ := trail
    exact Or.inr ⟨Or.inl ⟨lines, rfl⟩, rfl⟩
  | list => exact .silent rfl (Or.inl trail)
  | broadcastMessage line =>
    cases line
    obtain ⟨⟨lines, rfl⟩, online⟩ := trail
    rw [presence_line]
    exact Or.inl ⟨⟨lines + 1, stay_succ lines⟩, online⟩
  | broadcastLeave notice =>
    cases notice
    have left : ChatEvent.presence ⟨i, c.client.name, .broadcast (leaveNotice c.client.name), .done⟩ = some .left :=
      presence_leaveNotice
    unfold leaveNotice at left
    rw [left]
    obtain ⟨⟨lines, rfl⟩ | rfl, offline⟩ := trail
    · exact ⟨Or.inl ⟨lines, List.append_assoc _ _ _⟩, offline⟩
    · exact ⟨Or.inr rfl, offline⟩
  | delete => exact .silent rfl ⟨Or.inr trail.1, trail.2⟩

@[simp] theorem presences_append (i : Nat) (past more : List ChatEvent) :
    presences i (past ++ more) = presences i past ++ presences i more := List.filterMap_append

theorem presences_singleton_self (i : Nat) (name : Bytes) (call : ChatCall) (reply : Reply) :
    presences i [⟨i, name, call, reply⟩] = (ChatEvent.presence ⟨i, name, call, reply⟩).toList := by
  cases known : ChatEvent.presence ⟨i, name, call, reply⟩ <;> simp [presences, known]

theorem presences_singleton_ne {i j : Nat} (other : i ≠ j) (name : Bytes) (call : ChatCall) (reply : Reply) :
    presences j [⟨i, name, call, reply⟩] = [] := by
  simp [presences, other]

/-- A connection on its trail, which is in `close_` only where the handler calls it. -/
structure OnTrail (c : Connection) (xs : List Presence) : Prop where
  trail : Trail c.pc c.client.isOnline xs
  closing : c.closing = true → ∃ site, c.pc = .close site

/-- Every connection is on its trail, and the map holds clients that are online, under their names. -/
structure NoticeInv (s : ChatState) (past : List ChatEvent) : Prop where
  trails : ∀ i c, s.connections[i]? = some c → OnTrail c (presences i past)
  unborn : ∀ i, s.connections[i]? = none → presences i past = []
  held : ∀ i, s.main.Holds i → ∃ c, s.connections[i]? = some c ∧ c.pc = .notStarted
  members : ∀ user ∈ s.users, ∃ c, s.connections[user.2]? = some c ∧ c.client.isOnline = true ∧ c.client.name = user.1

/-- One connection moves on. -/
theorem NoticeInv.set {s s' : ChatState} {past past' : List ChatEvent} {c' : Connection} (inv : NoticeInv s past)
    (found : s.connections[i]? = some c) (connections : s'.connections = s.connections.set i c')
    (trail : OnTrail c' (presences i past'))
    (others : ∀ j, i ≠ j → presences j past' = presences j past)
    (held : ∀ j, s'.main.Holds j → s.main.Holds j ∧ (i = j → c'.pc = .notStarted))
    (members : ∀ user ∈ s'.users, user.2 ≠ i ∧ user ∈ s.users ∨
      user.2 = i ∧ c'.client.isOnline = true ∧ c'.client.name = user.1) : NoticeInv s' past' := by
  have here : s'.connections[i]? = some c' := by
    rw [connections]
    exact List.getElem?_set_self (List.getElem?_eq_some_iff.mp found).1
  have there : ∀ j, i ≠ j → s'.connections[j]? = s.connections[j]? := by
    intro j other
    rw [connections, List.getElem?_set_ne other]
  refine ⟨?_, ?_, ?_, ?_⟩
  · intro j d at_
    by_cases same : i = j
    · subst same
      cases here.symm.trans at_
      exact trail
    · rw [others j same]
      exact inv.trails j d (there j same ▸ at_)
  · intro j outside
    by_cases same : i = j
    · subst same
      cases here.symm.trans outside
    · rw [others j same]
      exact inv.unborn j (there j same ▸ outside)
  · intro j place
    obtain ⟨before, waits⟩ := held j place
    by_cases same : i = j
    · exact ⟨c', same ▸ here, waits same⟩
    · rw [there j same]
      exact inv.held j before
  · intro user member
    rcases members user member with ⟨other, old⟩ | ⟨mine, online, named⟩
    · rw [there user.2 (Ne.symm other)]
      exact inv.members user old
    · exact ⟨c', mine ▸ here, online, named⟩

theorem NoticeInv.unchanged_members {s : ChatState} {past : List ChatEvent} (inv : NoticeInv s past)
    (found : s.connections[i]? = some c) : ∀ user ∈ s.users, user.2 ≠ i ∧ user ∈ s.users ∨
      user.2 = i ∧ c.client.isOnline = true ∧ c.client.name = user.1 := by
  intro user member
  by_cases mine : user.2 = i
  · obtain ⟨d, at_, online, named⟩ := inv.members user member
    cases found.symm.trans (mine ▸ at_)
    exact Or.inr ⟨mine, online, named⟩
  · exact Or.inl ⟨mine, member⟩

theorem NoticeInv.main {past : List ChatEvent} {s s' : ChatState} (inv : NoticeInv s past) (users : s'.users = s.users)
    (move : MainMove s s') : NoticeInv s' past := by
  cases move with
  | stays connections held =>
    refine ⟨by rw [connections]; exact inv.trails, by rw [connections]; exact inv.unborn, ?_,
      by rw [connections, users]; exact inv.members⟩
    intro i holds
    rw [connections]
    exact inv.held i (held i holds)
  | accept connections main =>
    have new : s.connections[s.connections.length]? = none := List.getElem?_eq_none (Nat.le_refl _)
    refine ⟨?_, ?_, ?_, ?_⟩
    · intro i c at_
      rw [connections, List.getElem?_append] at at_
      split at at_
      · exact inv.trails i c at_
      · rename_i beyond
        have nothing : presences i past = [] := inv.unborn i (List.getElem?_eq_none (Nat.not_lt.mp beyond))
        rw [List.getElem?_singleton] at at_
        split at at_
        · cases at_
          exact ⟨⟨nothing, rfl⟩, nofun⟩
        · cases at_
    · intro i outside
      rw [connections, List.getElem?_eq_none_iff, List.length_append] at outside
      exact inv.unborn i (List.getElem?_eq_none (by omega))
    · intro i place
      rw [main] at place
      cases place
      exact ⟨{}, by rw [connections, List.getElem?_concat_length], rfl⟩
    · intro user member
      rw [users] at member
      obtain ⟨c, at_, known⟩ := inv.members user member
      have inside := (List.getElem?_eq_some_iff.mp at_).1
      exact ⟨c, by rw [connections, List.getElem?_append_left inside]; exact at_, known⟩
  | @spawn i c spawning found connections main =>
    obtain ⟨d, at_, waiting⟩ := inv.held i (spawning ▸ rfl)
    cases found.symm.trans at_
    obtain ⟨trail, closing⟩ := inv.trails i c found
    rw [waiting] at trail closing
    refine inv.set found connections ⟨trail, fun closes => ?_⟩ (fun _ _ => rfl) (fun j place => ?_) ?_
    · obtain ⟨site, place⟩ := closing closes
      cases place
    · rw [main] at place
      exact place.elim
    · rw [users]
      have members := inv.unchanged_members found
      exact members
  | @close i c visited closing found connections main =>
    have ⟨trail, closes⟩ := inv.trails i c found
    refine inv.set found connections ⟨trail, closes⟩ (fun _ _ => rfl) (fun j place => ?_) ?_
    · rw [main] at place
      exact place.elim
    · rw [users]
      have members := inv.unchanged_members found
      exact members

/-- A call changes the map only for its own client, and keeps to what the map means. -/
theorem NoticeInv.call_members {past : List ChatEvent} {call : ChatCall} {reply : Reply} {client : Client}
    {users : Users}
    {sent : List (Nat × Bytes)} (inv : NoticeInv s past) (found : s.connections[i]? = some c)
    (known : c.pc.call c.client.name = some call)
    (done : s.perform i c.client r call = some (reply, client, users, sent)) :
    ∀ user ∈ users, user.2 ≠ i ∧ user ∈ s.users ∨ user.2 = i ∧ client.isOnline = true ∧ client.name = user.1 := by
  have old := inv.unchanged_members found
  cases call with
  | register =>
    simp only [ChatState.perform] at done
    split at done
    · cases done
      exact old
    · cases done
      intro user member
      rcases mem_insertUser.mp member with new | before
      · rw [new]
        exact Or.inr ⟨rfl, rfl, rfl⟩
      · rcases old user before with foreign | ⟨mine, _, named⟩
        · exact Or.inl foreign
        · exact Or.inr ⟨mine, rfl, named⟩
  | unregister =>
    cases done
    intro user member
    obtain ⟨before, other⟩ := mem_eraseUser.mp member
    rcases old user before with foreign | ⟨mine, _, named⟩
    · exact Or.inl foreign
    · exact absurd named.symm other
  | getName =>
    cases done
    intro user member
    rcases old user member with foreign | ⟨mine, online, named⟩
    · exact Or.inl foreign
    · have offline := (HandlerPc.getName_of_call known ▸ (inv.trails i c found).trail).2
      rw [offline] at online
      cases online
  | close => cases done
  | _ =>
    cases done
    exact old

theorem NoticeInv.handler {past : List ChatEvent} {events : List ChatEvent} (inv : NoticeInv s past)
    (found : s.connections[i]? = some c) (move : HandlerTrace s i r c s' events) : NoticeInv s' (past ++ events) := by
  have ⟨trail, closes⟩ := inv.trails i c found
  have started : ∀ j, s.main.Holds j → i = j → c.pc = .notStarted := by
    intro j place same
    obtain ⟨d, at_, waiting⟩ := inv.held j place
    cases found.symm.trans (same ▸ at_)
    exact waiting
  cases move with
  | @notify pc closing next =>
    obtain ⟨site, place⟩ := closes closing
    rw [List.append_nil]
    refine inv.set found rfl ⟨?_, nofun⟩ (fun _ _ => rfl) (fun j main => ?_) ?_
    · rw [place] at trail next
      cases site with
      | unnamed =>
        cases next
        exact ⟨Or.inl trail.1, trail.2⟩
      | refused =>
        cases next
        exact Or.inr trail
      | leaving =>
        cases next
        exact trail
    · have before := MainPc.holds_of_notifyAll main
      refine ⟨before, fun same => ?_⟩
      cases place.symm.trans (started j before same)
    · have members := inv.unchanged_members found
      exact members
  | @close site idle place =>
    refine inv.set found rfl ⟨?_, fun _ => ⟨site, place⟩⟩ (fun j other => ?_)
      (fun j held => ⟨held, started j held⟩) ?_
    · rw [presences_append, presences_singleton_self]
      simpa [ChatEvent.presence] using trail
    · rw [presences_append, presences_singleton_ne other, List.append_nil]
    · have members := inv.unchanged_members found
      exact members
  | @call call reply client users sent pc idle known done next =>
    refine inv.set found rfl ⟨?_, fun closing => ?_⟩ (fun j other => ?_) (fun j held => ⟨held, fun same => ?_⟩)
      (inv.call_members found known done)
    · rw [presences_append, presences_singleton_self]
      exact trail.call known done next
    · rw [idle] at closing
      cases closing
    · rw [presences_append, presences_singleton_ne other, List.append_nil]
    · rw [started j held same] at known
      cases known

theorem notice_inv {maxConcurrentClients : Int} {past : List ChatEvent}
    (reach : (tracedChat maxConcurrentClients).Reach (s, past)) : NoticeInv s past := by
  suffices ∀ state, (tracedChat maxConcurrentClients).Reach state → NoticeInv state.1 state.2 from this _ reach
  intro state reach
  refine reach.invariant (I := fun state => NoticeInv state.1 state.2) ?_ ?_
  · intro state initial
    cases initial
    exact ⟨nofun, fun _ _ => rfl, nofun, nofun⟩
  · intro ⟨s, past⟩ action ⟨t, past'⟩ _ inv step
    obtain ⟨moved, rfl⟩ := tracedChat_step step
    by_cases handler : ∃ i r, action = .handler i r
    · obtain ⟨i, r, rfl⟩ := handler
      obtain ⟨c, found, _, move⟩ := handlerStep_trace moved
      exact inv.handler found move
    · have background : ∀ i r, action ≠ .handler i r := fun i r same => handler ⟨i, r, same⟩
      have silent : s.event action = none := by
        cases action with
        | handler i r => exact absurd rfl (background i r)
        | _ => rfl
      obtain ⟨users, _, move⟩ := chatStep_background moved background
      simpa [silent] using inv.main users move

/-- No step refuses a client: the names that register_client is asked for are not in the map. -/
def registersFresh (s : ChatState × List ChatEvent) : ChatAction → Bool
  | .handler i _ =>
    !(s.1.connections[i]?.any fun c => c.pc = .register && s.1.users.any fun user => user.1 = c.client.name)
  | _ => true

theorem ChatEvent.presence_refused {e : ChatEvent} (refused : e.presence = some .refused) :
    e.call = .register ∧ e.reply = .answer false := by
  unfold presence at refused
  split at refused
  · rename_i yes call reply
    split at refused
    · cases refused
    · rename_i no
      exact ⟨call, by rw [reply, Bool.eq_false_of_not_eq_true no]⟩
  · split at refused
    · cases refused
    · split at refused <;> cases refused
  · cases refused
  · cases refused

theorem not_refused {maxConcurrentClients : Int} {past : List ChatEvent}
    (via : (tracedChat maxConcurrentClients).ReachVia registersFresh (s, past)) (i : Nat) :
    .refused ∉ presences i past := by
  suffices ∀ state, (tracedChat maxConcurrentClients).ReachVia registersFresh state →
    .refused ∉ presences i state.2 from
    this _ via
  intro state via
  refine via.invariant (I := fun state => .refused ∉ presences i state.2) ?_ ?_
  · intro state initial
    cases initial
    exact List.not_mem_nil
  · intro ⟨s, past⟩ action ⟨t, past'⟩ clean fresh step
    obtain ⟨moved, rfl⟩ := tracedChat_step step
    cases action with
    | handler j r =>
      obtain ⟨c, found, _, move⟩ := handlerStep_trace moved
      intro member
      rw [presences_append] at member
      have new := (List.mem_append.mp member).resolve_left clean
      obtain ⟨e, inside, refused⟩ := List.mem_filterMap.mp new
      split at refused
      · obtain ⟨register, no⟩ := e.presence_refused refused
        generalize (s.event (.handler j r)).toList = events at move inside
        cases move with
        | notify => cases inside
        | close =>
          cases List.mem_singleton.mp inside
          cases register
        | call idle known done next =>
          cases List.mem_singleton.mp inside
          dsimp only at register no
          subst register no
          have place := HandlerPc.register_of_call known
          simp only [ChatState.perform] at done
          split at done
          · rename_i taken
            simp [registersFresh, found, place, taken] at fresh
          · cases done
      · cases refused
    | _ => simpa [ChatState.event] using clean

/-- A connection that was not refused is somewhere on the way of an accepted one. -/
theorem Trail.accepted {pc : HandlerPc} {online : Bool} {xs : List Presence} (trail : Trail pc online xs)
    (clean : .refused ∉ xs) : ∃ lines, xs <+: stay lines ++ [.unregistered, .left] := by
  have staying : ∀ lines, stay lines <+: stay lines ++ [.unregistered, .left] := fun lines => List.prefix_append _ _
  have departed : ∀ lines, stay lines ++ [.unregistered] <+: stay lines ++ [.unregistered, .left] := fun lines =>
    ⟨[.left], by simp⟩
  cases pc with
  | notStarted | welcome | getName | nameTimedOut | register =>
    rw [trail.1]
    exact ⟨0, List.nil_prefix⟩
  | broadcastJoin =>
    rcases trail with ⟨rfl, _⟩ | ⟨rfl, _⟩
    · exact ⟨0, _, rfl⟩
    · simp at clean
  | loop =>
    rcases trail with ⟨⟨lines, rfl⟩, _⟩ | ⟨⟨lines, rfl⟩ | rfl, _⟩
    · exact ⟨lines, staying lines⟩
    · exact ⟨lines, departed lines⟩
    · simp at clean
  | getMessage | timedOut | unregister | list | broadcastMessage =>
    obtain ⟨⟨lines, rfl⟩, _⟩ := trail
    exact ⟨lines, staying lines⟩
  | broadcastLeave =>
    obtain ⟨⟨lines, rfl⟩ | rfl, _⟩ := trail
    · exact ⟨lines, departed lines⟩
    · simp at clean
  | close site =>
    cases site with
    | unnamed =>
      rw [trail.1]
      exact ⟨0, List.nil_prefix⟩
    | refused =>
      rw [trail.1] at clean
      simp at clean
    | leaving =>
      obtain ⟨⟨lines, rfl⟩ | rfl, _⟩ := trail
      · exact ⟨lines, List.prefix_rfl⟩
      · simp at clean
  | delete =>
    obtain ⟨⟨lines, rfl⟩ | rfl, _⟩ := trail
    · exact ⟨lines, List.prefix_rfl⟩
    · simp at clean
  | returned =>
    obtain ⟨rfl | ⟨lines, rfl⟩ | rfl, _⟩ := trail
    · exact ⟨0, List.nil_prefix⟩
    · exact ⟨lines, List.prefix_rfl⟩
    · simp at clean

/-- A connection that has been unregistered is offline. -/
theorem Trail.offline {pc : HandlerPc} {online : Bool} {xs : List Presence} (trail : Trail pc online xs)
    (gone : .unregistered ∈ xs) : online = false := by
  have staying : ∀ lines, .unregistered ∉ stay lines := by simp [stay]
  cases pc with
  | notStarted | welcome | getName | nameTimedOut | register | broadcastLeave | delete | returned => exact trail.2
  | close site => cases site <;> exact trail.2
  | broadcastJoin =>
    rcases trail with ⟨rfl, _⟩ | ⟨_, offline⟩
    · simp at gone
    · exact offline
  | loop =>
    rcases trail with ⟨⟨lines, rfl⟩, _⟩ | ⟨_, offline⟩
    · exact absurd gone (staying lines)
    · exact offline
  | getMessage | timedOut | unregister | list | broadcastMessage =>
    obtain ⟨⟨lines, rfl⟩, _⟩ := trail
    exact absurd gone (staying lines)

/-- In the runs that refuse nobody, a handler announces its client after the registration and before
its lines, and takes leave of it last, when the client is out of the map. -/
theorem presence_notices {maxConcurrentClients : Int} {past : List ChatEvent}
    (via : (tracedChat maxConcurrentClients).ReachVia registersFresh (s, past)) (i : Nat) :
    (∃ lines, presences i past <+: stay lines ++ [.unregistered, .left]) ∧
    (.unregistered ∈ presences i past → ∀ user ∈ s.users, user.2 ≠ i) ∧
    ∀ c, s.connections[i]? = some c → c.pc = .returned →
      presences i past = [] ∨ ∃ lines, presences i past = stay lines ++ [.unregistered, .left] := by
  have clean := not_refused via i
  have inv := notice_inv via.reach
  cases found : s.connections[i]? with
  | none =>
    have nothing := inv.unborn i found
    rw [nothing]
    exact ⟨⟨0, List.nil_prefix⟩, nofun, nofun⟩
  | some c =>
    obtain ⟨trail, _⟩ := inv.trails i c found
    refine ⟨trail.accepted clean, fun gone user member mine => ?_, ?_⟩
    · obtain ⟨d, at_, online, _⟩ := inv.members user member
      cases found.symm.trans (mine ▸ at_)
      rw [trail.offline gone] at online
      cases online
    · intro d same returned
      cases same
      rw [returned] at trail
      rcases trail.1 with nothing | whole | refused
      · exact Or.inl nothing
      · exact Or.inr whole
      · simp [refused] at clean

/-- A refused client is announced and sent off like a member, by the time its handler returns. -/
theorem refused_notices {maxConcurrentClients : Int} {past : List ChatEvent}
    (reach : (tracedChat maxConcurrentClients).Reach (s, past)) (refused : .refused ∈ presences i past)
    (found : s.connections[i]? = some c) (returned : c.pc = .returned) :
    presences i past = [.refused, .joined, .left] := by
  obtain ⟨trail, _⟩ := (notice_inv reach).trails i c found
  rw [returned] at trail
  rcases trail.1 with nothing | ⟨lines, whole⟩ | notices
  · simp [nothing] at refused
  · simp [whole, stay] at refused
  · exact notices

/-- The second client writes a line and leaves. -/
def lineAndBye : List ChatAction :=
  twoClients "ann" "bob" ++ List.replicate 4 (.handler 1 (.text (ascii "hi"))) ++
    List.replicate 8 (.handler 1 (.text (ascii "\\bye")))

theorem presence_notices_bye :
    ∃ s past, (tracedChat 2).execVia registersFresh (.start, []) lineAndBye = some (s, past) ∧
      presences 1 past = [.accepted, .joined, .line, .unregistered, .left] ∧ ∀ user ∈ s.users, user.2 ≠ 1 := by
  have run : (tracedChat 2).execVia registersFresh (.start, []) lineAndBye = some (_, _) := rfl
  obtain ⟨_, gone, _⟩ := presence_notices (System.ReachVia.exec (.start rfl) run) 1
  exact ⟨_, _, rfl, rfl, gone (by decide)⟩

/-- Of two clients with the same name the second one is refused, and the first one is told that it
has joined and that it has left. -/
theorem refused_client_is_announced :
    ∃ s past, (tracedChat 2).Reach (s, past) ∧ presences 1 past = [.refused, .joined, .left] ∧
      (0, joinNotice (ascii "ann")) ∈ s.sent ∧ (0, leaveNotice (ascii "ann")) ∈ s.sent := by
  have run : (tracedChat 2).exec (.start, []) (twoClients "ann" "ann" ++ List.replicate 6 (.handler 1 (.text []))) =
    some (_, _) := rfl
  exact ⟨_, _, System.Reach.exec (.start rfl) run, rfl, by decide, by decide⟩

end PCProject
