import PCProject.ChatInterleaving

namespace PCProject

/-- Whether a client is online, as far as the place of its handler tells. -/
def HandlerPc.membership : HandlerPc → Option Bool
  | .broadcastJoin | .loop => none
  | .getMessage | .timedOut | .unregister | .list | .broadcastMessage _ => some true
  | _ => some false

/-- The places before the client has a name. -/
def HandlerPc.unnamed : HandlerPc → Bool
  | .notStarted | .welcome | .getName => true
  | _ => false

/-- Outside of the calls that have stages. -/
structure Connection.Settled (c : Connection) : Prop where
  member : ∀ online, c.pc.membership = some online → c.client.isOnline = online
  closing : c.closing = true → ∃ site, c.pc = .close site

/-- A handler is inside a call only where it makes this call. -/
def Connection.Staged (c : Connection) : CallStage → Prop
  | .outside => c.Settled
  | .inserting | .settingOnline => c.pc = .register ∧ c.client.isOnline = false ∧ c.closing = false
  | .erasing => c.pc = .unregister ∧ c.client.isOnline = false ∧ c.closing = false
  | .reading message _ | .sending message _ _ =>
    c.pc.call c.client.name = some (.broadcast message) ∧ c.Settled ∧ c.closing = false

/-- Between its insertion into the map and its removal. -/
def Connection.Inside (c : Connection) : CallStage → Prop
  | .settingOnline | .erasing => True
  | _ => c.client.isOnline = true

variable {s s' : InterleavedChat} {i : Nat} {r : Received} {c c' : Connection} {stage : CallStage} {users : Users}
  {sends : List (Nat × Bytes)}

theorem Connection.Settled.idle {pc : HandlerPc} {client : Client} {closes : Nat}
    (member : ∀ online, pc.membership = some online → client.isOnline = online) :
    (⟨client, pc, false, closes⟩ : Connection).Settled :=
  ⟨member, nofun⟩

/-- A handler is somewhere in the loop or before it when it is about to broadcast. -/
theorem HandlerPc.resume_broadcast {pc pc' : HandlerPc} {name message : Bytes}
    (known : pc.call name = some (.broadcast message)) (next : pc.resume .done = some pc') :
    pc' = .loop ∧ pc ≠ .broadcastLeave ∨ pc' = .close .leaving ∧ pc = .broadcastLeave := by
  cases pc with
  | broadcastJoin => cases next; exact Or.inl ⟨rfl, nofun⟩
  | broadcastMessage => cases next; exact Or.inl ⟨rfl, nofun⟩
  | broadcastLeave => cases next; exact Or.inr ⟨rfl, rfl⟩
  | _ => cases known

/-- The simple calls lead to places that fit. -/
theorem Connection.Settled.call {call : ChatCall} {reply : Reply} {client : Client} {pc : HandlerPc}
    {sent : List (Nat × Bytes)} (settled : c.Settled) (known : c.pc.call c.client.name = some call)
    (simple : call.isSimple = true)
    (done : s.chat.perform i c.client r call = some (reply, client, users, sent)) (next : c.pc.resume reply = some pc)
    (same : client.isOnline = c.client.isOnline) :
    ∀ online, pc.membership = some online → client.isOnline = online := by
  have member := settled.member
  rw [same]
  have does := handlerCall known done next
  generalize c.pc = place at member does
  cases does with
  | refused | accepted | unregister | broadcastJoin | broadcastMessage | broadcastLeave => cases simple
  | welcome | nameTimedOut | timedOut | delete => exact member
  | list => nofun
  | loop =>
    intro online fits
    split at fits
    · cases fits
      assumption
    · rename_i offline
      cases fits
      simpa using offline
  | getName next =>
    cases next
    intro online fits
    split at fits
    · exact member online fits
    · split at fits
      · exact member online fits
      · exact member online fits
  | getMessage next =>
    cases next
    intro online fits
    repeat' split at fits
    all_goals exact member online fits

/-- A step keeps the handler consistent. -/
theorem InterleavedMove.staged (move : InterleavedMove s i r c c' stage users sends) (staged : c.Staged (s.stage i)) :
    c'.Staged stage := by
  cases move with
  | refuse at_ idle place _ after =>
    rw [at_] at staged
    have offline := staged.member false (by rw [place]; rfl)
    subst after
    rw [idle]
    exact .idle fun _ fits => by cases fits; exact offline
  | count at_ idle place _ =>
    rw [at_] at staged
    exact ⟨place, staged.member false (by rw [place]; rfl), idle⟩
  | insert at_ =>
    rw [at_] at staged
    exact staged
  | online at_ next =>
    rw [at_] at staged
    obtain ⟨place, _, idle⟩ := staged
    rw [place] at next
    cases next
    rw [idle]
    exact .idle nofun
  | offline at_ idle place => exact ⟨place, rfl, idle⟩
  | erase at_ next =>
    rw [at_] at staged
    obtain ⟨place, _, idle⟩ := staged
    rw [place] at next
    cases next
    rw [idle]
    exact .idle nofun
  | broadcast at_ idle known =>
    rw [at_] at staged
    exact ⟨known, staged, idle⟩
  | done at_ _ next =>
    rw [at_] at staged
    obtain ⟨known, settled, idle⟩ := staged
    rw [idle]
    rcases HandlerPc.resume_broadcast known next with ⟨rfl, _⟩ | ⟨rfl, place⟩
    · exact .idle nofun
    · have offline := settled.member false (by rw [place]; rfl)
      exact .idle fun _ fits => by cases fits; exact offline
  | skip at_ | read at_ | send at_ =>
    rw [at_] at staged
    exact staged
  | call at_ idle known simple done next same _ =>
    rw [at_] at staged
    rw [idle]
    exact .idle (staged.call known simple done next same)
  | close at_ idle place =>
    rw [at_] at staged
    exact ⟨staged.member, fun _ => ⟨_, place⟩⟩
  | notify at_ closing next =>
    rw [at_] at staged
    obtain ⟨site, place⟩ := staged.closing closing
    have offline := staged.member false (by rw [place]; rfl)
    rw [place] at next
    cases site with
    | unnamed => cases next; exact .idle fun _ fits => by cases fits; exact offline
    | refused => cases next; exact .idle nofun
    | leaving => cases next; exact .idle fun _ fits => by cases fits; exact offline

/-- A step adds at most the client's own entry, and only while the client is inside. -/
theorem InterleavedMove.members (move : InterleavedMove s i r c c' stage users sends) (staged : c.Staged (s.stage i))
    (sorted : SortedUsers s.chat.users)
    (mine : ∀ user ∈ s.chat.users, user.2 = i → c.client.name = user.1 ∧ c.Inside (s.stage i)) :
    ∀ user ∈ users, user.2 ≠ i ∧ user ∈ s.chat.users ∨ user.2 = i ∧ c'.client.name = user.1 ∧ c'.Inside stage := by
  have kept : ∀ (c' : Connection) (stage : CallStage), (∀ name, c.client.name = name → c.Inside (s.stage i) →
      c'.client.name = name ∧ c'.Inside stage) → ∀ user ∈ s.chat.users, user.2 ≠ i ∧ user ∈ s.chat.users ∨
        user.2 = i ∧ c'.client.name = user.1 ∧ c'.Inside stage := by
    intro c' stage fits user member
    by_cases own : user.2 = i
    · obtain ⟨named, inside⟩ := mine user member own
      exact Or.inr ⟨own, fits user.1 named inside⟩
    · exact Or.inl ⟨own, member⟩
  cases move with
  | insert at_ =>
    intro user member
    rcases (mem_assignUser sorted).mp member with new | ⟨old, _⟩
    · rw [new]
      exact Or.inr ⟨rfl, rfl, trivial⟩
    · exact kept c .settingOnline (fun name named _ => ⟨named, trivial⟩) user old
  | online at_ next => exact kept _ _ fun name named _ => ⟨named, rfl⟩
  | offline at_ idle place => exact kept _ _ fun name named _ => ⟨named, trivial⟩
  | erase at_ next =>
    intro user member
    obtain ⟨old, apart⟩ := mem_eraseUser.mp member
    by_cases own : user.2 = i
    · exact absurd (mine user old own).1.symm apart
    · exact Or.inl ⟨own, old⟩
  | call at_ idle known simple done next same named =>
    refine kept _ _ fun name here inside => ?_
    rw [at_] at inside staged
    rcases named with naming | same_name
    · have offline := staged.member false (by rw [naming]; rfl)
      exact absurd (inside.symm.trans offline) nofun
    · exact ⟨same_name.trans here, same.trans inside⟩
  | refuse at_ | count at_ | broadcast at_ | done at_ | skip at_ | read at_ | send at_ | close at_ | notify at_ =>
    refine kept _ _ fun name named inside => ⟨named, ?_⟩
    rw [at_] at inside
    exact inside

theorem InterleavedMove.sorted (move : InterleavedMove s i r c c' stage users sends)
    (sorted : SortedUsers s.chat.users) :
    SortedUsers users := by
  cases move with
  | insert => exact sorted.assign
  | erase => exact sorted.erase
  | _ => exact sorted

/-- What holds in every run, whatever the handlers do to each other. -/
structure RoomInv (s : InterleavedChat) : Prop where
  staged : ∀ (i : Nat) (c : Connection), s.chat.connections[i]? = some c → c.Staged (s.stage i)
  unborn : ∀ i, s.chat.connections[i]? = none → s.stage i = .outside
  sorted : SortedUsers s.chat.users
  members : ∀ user ∈ s.chat.users, ∃ c, s.chat.connections[user.2]? = some c ∧ c.client.name = user.1 ∧
    c.Inside (s.stage user.2)
  held : ∀ i, s.chat.main.Holds i → ∃ c, s.chat.connections[i]? = some c ∧ c.pc = .notStarted

theorem HandlerPc.membership_of_unnamed {pc : HandlerPc} (unnamed : pc.unnamed = true) :
    pc.membership = some false := by
  cases pc with
  | notStarted | welcome | getName => rfl
  | _ => cases unnamed

/-- A client in the map has its name. -/
theorem Connection.Staged.named (staged : c.Staged stage) (inside : c.Inside stage) : c.pc.unnamed = false := by
  cases stage with
  | outside =>
    refine Bool.eq_false_of_not_eq_true fun unnamed => ?_
    have offline := Connection.Settled.member staged false (HandlerPc.membership_of_unnamed unnamed)
    cases offline.symm.trans inside
  | inserting | settingOnline | erasing => rw [staged.1]; rfl
  | reading | sending =>
    have known := staged.1
    cases place : c.pc with
    | notStarted | welcome | getName =>
      rw [place] at known
      cases known
    | _ => rfl

/-- A handler that has not started is not inside a call. -/
theorem Connection.Staged.outside (staged : c.Staged stage) (waiting : c.pc = .notStarted) :
    stage = .outside ∧ c.closing = false := by
  cases stage with
  | outside =>
    refine ⟨rfl, Bool.eq_false_of_not_eq_true fun closes => ?_⟩
    obtain ⟨site, place⟩ := Connection.Settled.closing staged closes
    cases waiting.symm.trans place
  | inserting | settingOnline | erasing => cases waiting.symm.trans staged.1
  | reading | sending =>
    have known := staged.1
    rw [waiting] at known
    cases known

/-- Such a handler makes no step. -/
theorem InterleavedMove.started (move : InterleavedMove s i r c c' stage users sends) (staged : c.Staged (s.stage i)) :
    c.pc ≠ .notStarted := by
  intro waiting
  obtain ⟨at_, idle⟩ := staged.outside waiting
  cases move with
  | refuse _ _ place | count _ _ place | offline _ _ place | close _ _ place => cases waiting.symm.trans place
  | broadcast _ _ known | call _ _ known =>
    rw [waiting] at known
    cases known
  | notify _ closing => cases idle.symm.trans closing
  | insert stage | online stage | erase stage | done stage | skip stage | read stage | send stage =>
    cases at_.symm.trans stage

theorem RoomInv.mine (inv : RoomInv s) (found : s.chat.connections[i]? = some c) :
    ∀ user ∈ s.chat.users, user.2 = i → c.client.name = user.1 ∧ c.Inside (s.stage i) := by
  intro user member own
  obtain ⟨d, at_, named, inside⟩ := inv.members user member
  rw [own] at at_ inside
  cases found.symm.trans at_
  exact ⟨named, inside⟩

theorem RoomInv.handler (inv : RoomInv s) (found : s.chat.connections[i]? = some c)
    (move : InterleavedMove s i r c c' stage users sends) (effect : StepEffect s i c' stage users sends s') :
    RoomInv s' := by
  have staged := inv.staged i c found
  have here := effect.here found
  refine ⟨?_, ?_, ?_, ?_, ?_⟩
  · intro j d at_
    by_cases same : i = j
    · subst same
      cases here.symm.trans at_
      rw [effect.moved]
      exact move.staged staged
    · rw [effect.still same]
      exact inv.staged j d (effect.there same ▸ at_)
  · intro j outside
    by_cases same : i = j
    · subst same
      cases here.symm.trans outside
    · rw [effect.still same]
      exact inv.unborn j (effect.there same ▸ outside)
  · rw [effect.users]
    exact move.sorted inv.sorted
  · rw [effect.users]
    intro user member
    rcases move.members staged inv.sorted (inv.mine found) user member with ⟨other, old⟩ | ⟨own, named, within⟩
    · rw [effect.there (Ne.symm other), effect.still (Ne.symm other)]
      exact inv.members user old
    · rw [own]
      exact ⟨c', here, named, effect.moved ▸ within⟩
  · intro j place
    obtain ⟨d, at_, waiting⟩ := inv.held j (effect.holds place)
    by_cases same : i = j
    · subst same
      cases found.symm.trans at_
      exact absurd waiting (move.started staged)
    · exact ⟨d, (effect.there same).trans at_, waiting⟩

/-- Main changes a connection without touching its client or its handler's stage. -/
theorem RoomInv.set {chat : ChatState} (inv : RoomInv s) (users : chat.users = s.chat.users)
    (found : s.chat.connections[i]? = some c) (connections : chat.connections = s.chat.connections.set i c')
    (client : c'.client = c.client) (staged : c'.Staged (s.stage i)) (held : ∀ i, ¬chat.main.Holds i) :
    RoomInv { s with chat := chat } := by
  have here : chat.connections[i]? = some c' := by
    rw [connections]
    exact List.getElem?_set_self (List.getElem?_eq_some_iff.mp found).1
  have there : ∀ j, i ≠ j → chat.connections[j]? = s.chat.connections[j]? := by
    intro j other
    rw [connections, List.getElem?_set_ne other]
  refine ⟨?_, ?_, ?_, ?_, ?_⟩
  · intro j d at_
    by_cases same : i = j
    · subst same
      cases here.symm.trans at_
      exact staged
    · exact inv.staged j d (there j same ▸ at_)
  · intro j outside
    by_cases same : i = j
    · subst same
      cases here.symm.trans outside
    · exact inv.unborn j (there j same ▸ outside)
  · simpa only [users] using inv.sorted
  · intro user member
    obtain ⟨d, at_, named, inside⟩ := inv.members user (users ▸ member)
    by_cases same : i = user.2
    · rw [← same] at at_ inside ⊢
      cases found.symm.trans at_
      refine ⟨c', here, client ▸ named, ?_⟩
      unfold Connection.Inside at inside ⊢
      rw [client]
      exact inside
    · exact ⟨d, (there user.2 same).trans at_, named, inside⟩
  · intro j place
    exact absurd place (held j)

theorem RoomInv.main {chat : ChatState} (inv : RoomInv s) (users : chat.users = s.chat.users)
    (move : MainMove s.chat chat) :
    RoomInv { s with chat := chat } := by
  cases move with
  | stays connections held =>
    refine ⟨?_, ?_, ?_, ?_, ?_⟩
    · simpa only [connections] using inv.staged
    · simpa only [connections] using inv.unborn
    · simpa only [users] using inv.sorted
    · simpa only [users, connections] using inv.members
    · intro i holds
      simpa only [connections] using inv.held i (held i holds)
  | accept connections main =>
    refine ⟨?_, ?_, ?_, ?_, ?_⟩
    · intro i c at_
      dsimp only at at_
      rw [connections, List.getElem?_append] at at_
      split at at_
      · exact inv.staged i c at_
      · rename_i beyond
        have outside : s.stage i = .outside := inv.unborn i (List.getElem?_eq_none (Nat.not_lt.mp beyond))
        rw [List.getElem?_singleton] at at_
        split at at_
        · cases at_
          show Connection.Staged {} (s.stage i)
          rw [outside]
          exact .idle fun _ fits => by cases fits; rfl
        · cases at_
    · intro i outside
      dsimp only at outside
      rw [connections, List.getElem?_eq_none_iff, List.length_append] at outside
      exact inv.unborn i (List.getElem?_eq_none (by omega))
    · simpa only [users] using inv.sorted
    · intro user member
      obtain ⟨c, at_, known⟩ := inv.members user (users ▸ member)
      have inside := (List.getElem?_eq_some_iff.mp at_).1
      exact ⟨c, by dsimp only; rw [connections, List.getElem?_append_left inside]; exact at_, known⟩
    · intro i place
      dsimp only at place
      rw [main] at place
      cases place
      exact ⟨{}, by dsimp only; rw [connections, List.getElem?_concat_length], rfl⟩
  | @spawn i c spawning found connections main =>
    obtain ⟨d, at_, waiting⟩ := inv.held i (spawning ▸ rfl)
    cases found.symm.trans at_
    have staged := inv.staged i c found
    obtain ⟨outside, idle⟩ := staged.outside waiting
    refine inv.set users found connections rfl ?_ fun j => by rw [main]; exact id
    rw [outside] at staged ⊢
    rw [idle]
    exact .idle fun _ fits => by cases fits; exact staged.member false (by rw [waiting]; rfl)
  | @close i c visited closing found connections main =>
    have staged := inv.staged i c found
    refine inv.set users found connections rfl ?_ fun j => by rw [main]; exact id
    cases stage : s.stage i with
    | outside => rw [stage] at staged; exact ⟨staged.member, staged.closing⟩
    | inserting | settingOnline | erasing => rw [stage] at staged; exact staged
    | reading | sending => rw [stage] at staged; exact ⟨staged.1, ⟨staged.2.1.member, staged.2.1.closing⟩, staged.2.2⟩

theorem RoomInv.step {maxConcurrentClients : Int} {action : ChatAction} (inv : RoomInv s)
    (step : interleavedStep maxConcurrentClients s action = some s') : RoomInv s' := by
  rcases interleavedStep_cases step with ⟨i, r, _, step⟩ | ⟨background, chat, rfl, stepped⟩
  · obtain ⟨c, c', stage, users, sends, found, move, effect⟩ := interleavedHandler_move step
    exact inv.handler found move effect
  · obtain ⟨users, _, move⟩ := chatStep_background stepped background
    exact inv.main users move

theorem RoomInv.start : RoomInv .start where
  staged := nofun
  unborn := fun _ _ => rfl
  sorted := List.Pairwise.nil
  members := nofun
  held := nofun

theorem room_inv {maxConcurrentClients : Int} (reach : (interleavedChat maxConcurrentClients).Reach s) : RoomInv s := by
  refine reach.invariant ?_ fun _ _ _ _ inv step => inv.step step
  intro s initial
  cases initial
  exact .start

end PCProject
