import PCProject.ChatNames

namespace PCProject

/-- Before `register_client` has answered. -/
def HandlerPc.early : HandlerPc → Bool
  | .welcome | .getName | .nameTimedOut | .register => true
  | _ => false

def HandlerPc.isClose : HandlerPc → Bool
  | .close _ => true
  | _ => false

/-- A broadcast that has read the entry of this client and has yet to send to it. -/
def CallStage.holds (i : Nat) : CallStage → Bool
  | .sending _ _ j => i = j
  | _ => false

/-- The step does not begin the `close_` of a client that a broadcast is about to send to, and the
loop of main over the remaining users finds none. -/
def timelyClose (s : InterleavedChat) : ChatAction → Bool
  | .handler i _ =>
    !(s.chat.connections[i]?.any fun c => c.pc.isClose && !c.closing) ||
      (List.range s.chat.connections.length).all fun j => !(s.stage j).holds i
  | .main _ =>
    match s.chat.main with
    | .stopping visited => (nextUser visited s.chat.users).isNone
    | _ => true
  | _ => true

variable {s s' : InterleavedChat} {i : Nat} {r : Received} {c c' : Connection} {stage : CallStage} {users : Users}
  {sends : List (Nat × Bytes)}

/-- `close_` has not begun before the client leaves, and has by the time its handler ends. -/
structure Connection.ClosedInTime (c : Connection) (stage : CallStage) : Prop where
  unclosed : c.pc.early = true ∨ c.Inside stage → c.closes = 0
  closed : c.closing = true ∨ c.pc = .delete ∨ c.pc = .returned → 0 < c.closes

theorem HandlerPc.resume_early {pc pc' : HandlerPc} {reply : Reply} (next : pc.resume reply = some pc')
    (early : pc'.early = true) : pc.early = true := by
  unfold HandlerPc.resume at next
  repeat' split at next
  all_goals cases next
  all_goals first | rfl | cases early

theorem HandlerPc.resume_ended {pc pc' : HandlerPc} {reply : Reply} (next : pc.resume reply = some pc')
    (ended : pc' = .delete ∨ pc' = .returned) : pc.isClose = true ∨ pc = .delete := by
  unfold HandlerPc.resume at next
  repeat' split at next
  all_goals cases next
  any_goals exact Or.inl rfl
  any_goals exact Or.inr rfl
  all_goals rcases ended with gone | gone <;> cases gone

theorem HandlerPc.isClose_of_call {pc : HandlerPc} {name : Bytes} {call : ChatCall} (known : pc.call name = some call)
    (other : call ≠ .close) : pc.isClose = false := by
  cases pc with
  | close site =>
    cases known
    exact absurd rfl other
  | _ => rfl

/-- A call other than `close_` and `delete` that comes back leads to a place where nothing has ended. -/
theorem Connection.ClosedInTime.resume {client : Client} {pc : HandlerPc} {reply : Reply} {stage' : CallStage}
    (inTime : c.ClosedInTime stage) (next : c.pc.resume reply = some pc) (open_ : c.pc.isClose = false)
    (inside : (⟨client, pc, false, c.closes⟩ : Connection).Inside stage' → c.Inside stage) :
    (⟨client, pc, false, c.closes⟩ : Connection).ClosedInTime stage' where
  unclosed before := inTime.unclosed (before.imp (HandlerPc.resume_early next) inside)
  closed ended := by
    rcases ended with closing | gone
    · cases closing
    · rcases HandlerPc.resume_ended next gone with close | delete
      · cases open_.symm.trans close
      · exact inTime.closed (Or.inr (Or.inl delete))

theorem InterleavedMove.closedInTime (move : InterleavedMove s i r c c' stage users sends)
    (staged : c.Staged (s.stage i))
    (inTime : c.ClosedInTime (s.stage i)) : c'.ClosedInTime stage := by
  cases move with
  | refuse at_ idle place _ after =>
    rw [at_] at staged inTime
    subst after
    have offline := staged.member false (by rw [place]; rfl)
    refine ⟨fun before => ?_, fun ended => ?_⟩
    · rcases before with early | inside
      · cases early
      · cases offline.symm.trans inside
    · rcases ended with closing | gone | gone
      · cases idle.symm.trans closing
      · cases gone
      · cases gone
  | count at_ | broadcast at_ | skip at_ | read at_ | send at_ =>
    rw [at_] at inTime
    exact ⟨inTime.unclosed, inTime.closed⟩
  | insert at_ =>
    rw [at_] at staged inTime
    exact ⟨fun _ => inTime.unclosed (Or.inl (by rw [staged.1]; rfl)), inTime.closed⟩
  | online at_ next =>
    rw [at_] at staged inTime
    obtain ⟨place, _, idle⟩ := staged
    rw [idle]
    exact inTime.resume next (by rw [place]; rfl) fun _ => trivial
  | offline at_ idle place =>
    rw [at_] at staged inTime
    have online := staged.member true (by rw [place]; rfl)
    exact ⟨fun _ => inTime.unclosed (Or.inr online), inTime.closed⟩
  | erase at_ next =>
    rw [at_] at staged inTime
    obtain ⟨place, _, idle⟩ := staged
    rw [idle]
    exact inTime.resume next (by rw [place]; rfl) fun _ => trivial
  | done at_ _ next =>
    rw [at_] at staged inTime
    obtain ⟨known, _, idle⟩ := staged
    rw [idle]
    exact inTime.resume next (HandlerPc.isClose_of_call known nofun) id
  | call at_ idle known simple done next same _ =>
    rw [at_] at inTime
    rw [idle]
    refine inTime.resume next (HandlerPc.isClose_of_call known fun close => ?_) (same.symm.trans ·)
    rw [close] at simple
    cases simple
  | close at_ idle place =>
    rw [at_] at staged
    have offline := staged.member false (by rw [place]; rfl)
    refine ⟨fun before => ?_, fun _ => Nat.succ_pos _⟩
    rcases before with early | inside
    · rw [place] at early
      cases early
    · cases offline.symm.trans inside
  | notify at_ closing next =>
    rw [at_] at staged inTime
    have positive := inTime.closed (Or.inl closing)
    obtain ⟨site, place⟩ := staged.closing closing
    have offline := staged.member false (by rw [place]; rfl)
    refine ⟨fun before => ?_, fun _ => positive⟩
    rcases before with early | inside
    · have was := HandlerPc.resume_early next early
      rw [place] at was
      cases was
    · cases offline.symm.trans inside

/-- A handler stays where it is or goes where a call leads. -/
theorem InterleavedMove.pc (move : InterleavedMove s i r c c' stage users sends) :
    c'.pc = c.pc ∨ ∃ reply, c.pc.resume reply = some c'.pc := by
  cases move with
  | refuse _ _ place _ after => exact Or.inr ⟨.answer false, by rw [place, after]; rfl⟩
  | online _ next | erase _ next | done _ _ next | call _ _ _ _ _ next | notify _ _ next => exact Or.inr ⟨_, next⟩
  | _ => exact Or.inl rfl

/-- Only the beginning of `close_` counts. -/
theorem InterleavedMove.closes (move : InterleavedMove s i r c c' stage users sends) :
    c'.closes = c.closes ∨
      c'.closes = c.closes + 1 ∧ s.stage i = .outside ∧ c.pc.isClose = true ∧ c.closing = false := by
  cases move with
  | close outside idle place => exact Or.inr ⟨rfl, outside, by rw [place]; rfl, idle⟩
  | _ => exact Or.inl rfl

/-- A broadcast gets hold of a client by reading its entry. -/
theorem InterleavedMove.holds {j : Nat} (move : InterleavedMove s i r c c' stage users sends)
    (sorted : SortedUsers s.chat.users) (holds : stage.holds j = true) :
    j ≠ i ∧ ∃ user ∈ s.chat.users, user.2 = j := by
  cases move with
  | read at_ entry other =>
    have here : j = _ := of_decide_eq_true holds
    subst here
    exact ⟨other, _, (nextUser_some sorted entry).1, rfl⟩
  | _ => cases holds

theorem Connection.Staged.notStarted_of_inside (staged : c.Staged stage) (inside : c.Inside stage) :
    c.pc ≠ .notStarted := by
  intro waiting
  have named := staged.named inside
  rw [waiting] at named
  cases named

structure PointerInv (s : InterleavedChat) : Prop where
  inTime : ∀ (i : Nat) (c : Connection), s.chat.connections[i]? = some c → c.ClosedInTime (s.stage i)
  held : ∀ i j, (s.stage i).holds j = true →
    ∃ c, s.chat.connections[j]? = some c ∧ c.closes = 0 ∧ c.pc ≠ .notStarted
  mains : ∀ i, s.chat.main.Holds i → ∀ c, s.chat.connections[i]? = some c → c.closes = 0
  stopping : ∀ i key, s.chat.main ≠ .closing i (some key)

theorem PointerInv.handler (inv : PointerInv s) (room : RoomInv s) (timely : timelyClose s (.handler i r) = true)
    (found : s.chat.connections[i]? = some c) (move : InterleavedMove s i r c c' stage users sends)
    (effect : StepEffect s i c' stage users sends s') : PointerInv s' := by
  have staged := room.staged i c found
  have here := effect.here found
  refine ⟨?_, ?_, ?_, ?_⟩
  · intro j d at_
    by_cases same : i = j
    · subst same
      cases here.symm.trans at_
      rw [effect.moved]
      exact move.closedInTime staged (inv.inTime i c found)
    · rw [effect.still same]
      exact inv.inTime j d (effect.there same ▸ at_)
  · intro k j holds
    by_cases mine : i = k
    · subst mine
      rw [effect.moved] at holds
      obtain ⟨other, user, member, target⟩ := move.holds room.sorted holds
      obtain ⟨d, at_, _, inside⟩ := room.members user member
      rw [target] at at_ inside
      refine ⟨d, (effect.there (Ne.symm other)).trans at_, (inv.inTime j d at_).unclosed (Or.inr inside), ?_⟩
      exact (room.staged j d at_).notStarted_of_inside inside
    · rw [effect.still mine] at holds
      obtain ⟨d, at_, unclosed, started⟩ := inv.held k j holds
      by_cases own : i = j
      · subst own
        cases found.symm.trans at_
        refine ⟨c', here, ?_, ?_⟩
        · rcases move.closes with same | ⟨-, -, place, idle⟩
          · exact same.trans unclosed
          · have born : k < s.chat.connections.length := by
              by_contra beyond
              rw [room.unborn k (List.getElem?_eq_none (Nat.not_lt.mp beyond))] at holds
              cases holds
            simp only [timelyClose, found, Option.any_some, place, idle, Bool.not_false, Bool.and_self, Bool.not_true,
              Bool.false_or, List.all_eq_true, List.mem_range] at timely
            have free := timely k born
            rw [holds] at free
            cases free
        · rcases move.pc with same | ⟨reply, next⟩
          · rwa [same]
          · exact HandlerPc.resume_ne_notStarted next
      · exact ⟨d, (effect.there own).trans at_, unclosed, started⟩
  · intro j holds d at_
    have before := effect.holds holds
    obtain ⟨e, held, waiting⟩ := room.held j before
    by_cases same : i = j
    · subst same
      cases found.symm.trans held
      exact absurd waiting (move.started staged)
    · exact inv.mains j before d (effect.there same ▸ at_)
  · intro j key closing
    rcases effect.main with same | notified
    · exact inv.stopping j key (same ▸ closing)
    · exact inv.stopping j key (MainPc.notifyAll_eq (notified ▸ closing) nofun)

/-- Nobody has a pointer to the client of a connection that main has in its hands. -/
theorem PointerInv.set {chat : ChatState} (inv : PointerInv s) (found : s.chat.connections[i]? = some c)
    (waiting : c.pc = .notStarted) (connections : chat.connections = s.chat.connections.set i c')
    (inTime : c'.ClosedInTime (s.stage i)) (free : ∀ i, ¬chat.main.Holds i)
    (stopping : ∀ i key, chat.main ≠ .closing i (some key)) : PointerInv { s with chat := chat } := by
  have there : ∀ j, i ≠ j → chat.connections[j]? = s.chat.connections[j]? := by
    intro j other
    rw [connections, List.getElem?_set_ne other]
  refine ⟨?_, ?_, fun j holds => absurd holds (free j), stopping⟩
  · intro j d at_
    dsimp only at at_
    by_cases same : i = j
    · subst same
      rw [connections, List.getElem?_set_self (List.getElem?_eq_some_iff.mp found).1] at at_
      cases at_
      exact inTime
    · exact inv.inTime j d (there j same ▸ at_)
  · intro k j holds
    obtain ⟨d, at_, unclosed, started⟩ := inv.held k j holds
    have other : i ≠ j := by
      intro same
      subst same
      cases found.symm.trans at_
      exact started waiting
    exact ⟨d, (there j other).trans at_, unclosed, started⟩

theorem PointerInv.main {maxConcurrentClients : Int} {action : ChatAction} {chat : ChatState} (inv : PointerInv s)
    (room : RoomInv s) (timely : timelyClose s action = true) (background : ∀ i r, action ≠ .handler i r)
    (step : chatStep maxConcurrentClients s.chat action = some chat) : PointerInv { s with chat := chat } := by
  have stopping : ∀ i key, chat.main ≠ .closing i (some key) := by
    intro i key closing
    rcases chatStep_closing step background closing with before | ⟨accepted, visited, rfl, place, next⟩
    · exact inv.stopping i key before
    · simp [timelyClose, place, next] at timely
  obtain ⟨_, _, move⟩ := chatStep_background step background
  cases move with
  | stays connections held =>
    refine ⟨?_, ?_, ?_, stopping⟩
    · simpa only [connections] using inv.inTime
    · simpa only [connections] using inv.held
    · intro i holds
      simpa only [connections] using inv.mains i (held i holds)
  | accept connections main =>
    have new : ∀ {j : Nat} {d : Connection}, chat.connections[j]? = some d → s.chat.connections[j]? = some d ∨
        s.stage j = .outside ∧ d = {} := by
      intro j d at_
      rw [connections, List.getElem?_append] at at_
      split at at_
      · exact Or.inl at_
      · rename_i beyond
        rw [List.getElem?_singleton] at at_
        split at at_
        · cases at_
          exact Or.inr ⟨room.unborn j (List.getElem?_eq_none (Nat.not_lt.mp beyond)), rfl⟩
        · cases at_
    refine ⟨?_, ?_, ?_, stopping⟩
    · intro j d at_
      rcases new at_ with old | ⟨outside, rfl⟩
      · exact inv.inTime j d old
      · exact ⟨fun _ => rfl, fun ended => by rcases ended with h | h | h <;> cases h⟩
    · intro k j holds
      obtain ⟨d, at_, known⟩ := inv.held k j holds
      have inside := (List.getElem?_eq_some_iff.mp at_).1
      refine ⟨d, ?_, known⟩
      dsimp only
      rw [connections, List.getElem?_append_left inside]
      exact at_
    · intro i holds d at_
      dsimp only at holds
      rw [main] at holds
      cases holds
      rcases new at_ with old | ⟨_, rfl⟩
      · exact absurd (List.getElem?_eq_some_iff.mp old).1 (Nat.lt_irrefl _)
      · rfl
  | @spawn i c spawning found connections main =>
    have holds : s.chat.main.Holds i := spawning ▸ rfl
    obtain ⟨d, at_, waiting⟩ := room.held i holds
    cases found.symm.trans at_
    have staged := room.staged i c found
    have fresh := inv.mains i holds c found
    refine inv.set found waiting connections ⟨fun _ => fresh, fun ended => ?_⟩
      (fun j => by rw [main]; exact id) stopping
    rcases ended with closing | gone | gone
    · exact (inv.inTime i c found).closed (Or.inl closing)
    · cases gone
    · cases gone
  | @close i c visited closing found connections main =>
    have holds : s.chat.main.Holds i := by
      rw [closing]
      cases visited with
      | none => rfl
      | some key => exact absurd closing (inv.stopping i key)
    obtain ⟨d, at_, waiting⟩ := room.held i holds
    cases found.symm.trans at_
    refine inv.set found waiting connections ⟨fun before => ?_, fun _ => Nat.succ_pos _⟩
      (fun j => by rw [main]; exact id) stopping
    rcases before with early | inside
    · rw [waiting] at early
      cases early
    · exact absurd waiting ((room.staged i c found).notStarted_of_inside inside)

theorem pointer_inv {maxConcurrentClients : Int}
    (via : (interleavedChat maxConcurrentClients).ReachVia timelyClose s) : RoomInv s ∧ PointerInv s := by
  refine via.invariant (I := fun s => RoomInv s ∧ PointerInv s) ?_ ?_
  · intro s initial
    cases initial
    exact ⟨.start, ⟨nofun, nofun, nofun, nofun⟩⟩
  · intro s action t inv timely step
    refine ⟨inv.1.step step, ?_⟩
    rcases interleavedStep_cases step with ⟨i, r, rfl, moved⟩ | ⟨background, chat, rfl, stepped⟩
    · obtain ⟨c, c', stage, users, sends, found, move, effect⟩ := interleavedHandler_move moved
      exact inv.2.handler inv.1 timely found move effect
    · exact inv.2.main inv.1 timely background stepped

/-- A client that is sent to by its own handler has not been closed. -/
theorem HandlerPc.sends_own {pc : HandlerPc} {name : Bytes} {call : ChatCall} (known : pc.call name = some call)
    (sends : (∃ m, call = .send m) ∨ ∃ m, call = .sendUserlist m) : pc.early = true ∨ pc.membership = some true := by
  cases pc with
  | welcome | nameTimedOut => exact Or.inl rfl
  | timedOut | list => exact Or.inr rfl
  | notStarted | returned => cases known
  | _ =>
    cases known
    rcases sends with ⟨m, same⟩ | ⟨m, same⟩ <;> cases same

/-- What a simple call sends goes to its own client. -/
theorem ChatState.perform_sends {s : ChatState} {call : ChatCall} {reply : Reply} {client client' : Client}
    {users : Users}
    (done : s.perform i client r call = some (reply, client', users, s.sent ++ sends)) (simple : call.isSimple = true) :
    sends = [] ∨ ((∃ m, call = .send m) ∨ ∃ m, call = .sendUserlist m) ∧ ∃ text, sends = [(i, text)] := by
  cases call with
  | send m =>
    simp only [ChatState.perform, Option.some.injEq, Prod.mk.injEq, List.append_cancel_left_eq] at done
    exact Or.inr ⟨Or.inl ⟨m, rfl⟩, m, done.2.2.2.symm⟩
  | sendUserlist m =>
    simp only [ChatState.perform, Option.some.injEq, Prod.mk.injEq, List.append_cancel_left_eq] at done
    exact Or.inr ⟨Or.inr ⟨m, rfl⟩, _, done.2.2.2.symm⟩
  | getName | getMessage | isOnline | delete =>
    simp only [ChatState.perform, Option.some.injEq, Prod.mk.injEq, List.self_eq_append_right] at done
    exact Or.inl done.2.2.2
  | _ => cases simple

/-- In the runs in which no client is closed while a broadcast is about to send to it, and main
closes nobody who is still registered, every message goes to a client that has been neither closed
nor deleted. -/
theorem messages_go_to_open_clients {maxConcurrentClients : Int} {action : ChatAction}
    (via : (interleavedChat maxConcurrentClients).ReachVia timelyClose s)
    (step : interleavedStep maxConcurrentClients s action = some s') :
    ∃ sends, s'.chat.sent = s.chat.sent ++ sends ∧
      ∀ send ∈ sends, ∃ c, s.chat.connections[send.1]? = some c ∧ c.closes = 0 ∧ c.pc ≠ .returned := by
  obtain ⟨room, inv⟩ := pointer_inv via
  have alive : ∀ {j : Nat} {d : Connection}, s.chat.connections[j]? = some d → d.closes = 0 → d.pc ≠ .returned := by
    intro j d at_ unclosed gone
    have positive := (inv.inTime j d at_).closed (Or.inr (Or.inr gone))
    omega
  rcases interleavedStep_cases step with ⟨i, r, rfl, moved⟩ | ⟨background, chat, rfl, stepped⟩
  · obtain ⟨c, c', stage, users, sends, found, move, effect⟩ := interleavedHandler_move moved
    refine ⟨sends, effect.sent, ?_⟩
    cases move with
    | @send message key j sending =>
      intro send member
      cases List.mem_singleton.mp member
      obtain ⟨d, at_, unclosed, _⟩ := inv.held i j (by rw [sending]; exact decide_eq_true rfl)
      exact ⟨d, at_, unclosed, alive at_ unclosed⟩
    | call at_ idle known simple done next same named =>
      have staged := room.staged i c found
      have unclosed := (inv.inTime i c found).unclosed
      rw [at_] at staged unclosed
      rcases ChatState.perform_sends done simple with none | ⟨direct, text, rfl⟩
      · rw [none]
        nofun
      · intro send member
        cases List.mem_singleton.mp member
        have early := unclosed ((HandlerPc.sends_own known direct).imp_right (staged.member true))
        exact ⟨c, found, early, alive found early⟩
    | _ => nofun
  · obtain ⟨_, sent, _⟩ := chatStep_background stepped background
    exact ⟨[], by simpa using sent, nofun⟩

/-- The broadcast that "bob" has joined has read the entry of "ann". -/
def aboutToSend : List ChatAction :=
  twoNames "ann" "bob" ++ List.replicate 3 (.handler 0 .timeout) ++ List.replicate 5 (.handler 1 .timeout)

theorem messages_go_to_open_clients_join :
    ∃ s s', (interleavedChat 2).execVia timelyClose .start aboutToSend = some s ∧
      interleavedStep 2 s (.handler 1 .timeout) = some s' ∧ ∃ sends, s'.chat.sent = s.chat.sent ++ sends ∧
        ∀ send ∈ sends, ∃ c, s.chat.connections[send.1]? = some c ∧ c.closes = 0 ∧ c.pc ≠ .returned := by
  obtain ⟨s, s', run, step⟩ : ∃ s s', (interleavedChat 2).execVia timelyClose .start aboutToSend = some s ∧
      interleavedStep 2 s (.handler 1 .timeout) = some s' := ⟨_, _, rfl, rfl⟩
  exact ⟨s, s', run, step, messages_go_to_open_clients (System.ReachVia.exec (.start rfl) run) step⟩

/-- In the meantime "ann" can leave: her client is closed and deleted when the message is sent to it. -/
theorem message_sent_to_deleted_client :
    ∃ s s' c message, (interleavedChat 2).Reach s ∧ s.chat.connections[0]? = some c ∧ c.closes = 1 ∧
      c.closing = false ∧ c.pc = .returned ∧ interleavedStep 2 s (.handler 1 .timeout) = some s' ∧
      s'.chat.sent = s.chat.sent ++ [(0, message)] := by
  have run : (interleavedChat 2).exec .start
    (aboutToSend ++ List.replicate 17 (.handler 0 (.text (ascii "\\bye")))) = some _ := rfl
  exact ⟨_, _, _, _, System.Reach.exec (.start rfl) run, rfl, rfl, rfl, rfl, rfl, rfl⟩

end PCProject
