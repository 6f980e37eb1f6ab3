import PCProject.ChatDelivery

namespace PCProject

/-- A broadcast that has yet to send to this client, which has its entry under this key. -/
def CallStage.unsent (j : Nat) (key : Bytes) : CallStage → Bool
  | .reading _ visited => visited.all (· < key)
  | .sending _ name target => target = j || name < key
  | _ => true

/-- The line on its way to a client. -/
def pendingLine (c : Connection) (j : Nat) (key : Bytes) (stage : CallStage) : List Bytes :=
  if stage.unsent j key then (c.pc.lineText.map (namePrefix c.client.name ++ ·)).toList else []

/-- The lines that the results of `get_message` stand for. -/
def linesFrom (name : Bytes) (rs : List Received) : List Bytes :=
  (rs.filterMap Received.line).map (namePrefix name ++ ·)

def InterleavedChat.nameOf (s : InterleavedChat) (j : Nat) : Bytes :=
  (s.chat.connections[j]?).elim [] fun d => d.client.name

variable {s s' : InterleavedChat} {i j k : Nat} {r : Received} {c c' : Connection} {stage : CallStage} {users : Users}
  {sends : List (Nat × Bytes)} {past past' : List RoomEvent} {key : Bytes}

theorem linesFrom_append (name : Bytes) (rs more : List Received) :
    linesFrom name (rs ++ more) = linesFrom name rs ++ linesFrom name more := by
  simp [linesFrom]

theorem linesOf_append (name : Bytes) (sent more : List Bytes) :
    linesOf name (sent ++ more) = linesOf name sent ++ linesOf name more := List.filter_append ..

theorem namePrefix_line (name text : Bytes) : (namePrefix name).isPrefixOf (namePrefix name ++ text) = true :=
  List.isPrefixOf_iff_prefix.mpr (List.prefix_append ..)

theorem pendingLine_none (silent : c.pc.lineText = none) : pendingLine c j key stage = [] := by
  simp [pendingLine, silent]

theorem HandlerPc.isSimple_lineText {pc : HandlerPc} (simple : pc.isSimple = true) : pc.lineText = none := by
  cases pc with
  | broadcastMessage => cases simple
  | _ => rfl

theorem HandlerPc.place_of_lineText {pc : HandlerPc} {text : Bytes} (passing : pc.lineText = some text) :
    pc = .broadcastMessage text := by
  cases pc with
  | broadcastMessage => cases passing; rfl
  | _ => cases passing

/-- The entry of another client stays ahead of an iteration, or behind it. -/
theorem nextUser_ahead {visited : Option Bytes} {name : Bytes} {t : Nat} (sorted : SortedUsers users)
    (next : nextUser visited users = some (name, t)) (entry : (key, j) ∈ users) (other : t ≠ j) :
    visited.all (· < key) = decide (name < key) := by
  obtain ⟨member, above, least⟩ := nextUser_some sorted next
  have apart : key ≠ name := by
    intro same
    subst same
    exact other (sorted.unique member entry)
  cases ahead : visited.all (· < key) with
  | true => exact (decide_eq_true (Bytes.lt_of_not (least _ entry ahead) apart.symm)).symm
  | false =>
    refine (decide_eq_false fun less => ?_).symm
    cases visited with
    | none => cases ahead
    | some last =>
      have before : last < key := List.lt_trans (of_decide_eq_true above) less
      exact absurd before (of_decide_eq_false ahead)

/-- A step at one of the places of one step sends nothing to the others, and `get_message` gives a line. -/
theorem InterleavedMove.simple_balance (move : InterleavedMove s i r c c' stage users sends)
    (staged : c.Staged (s.stage i))
    (simple : c.pc.isSimple = true) (named : c'.client.name = c.client.name) :
    pendingLine c' j key stage =
      pendingLine c j key (s.stage i) ++ linesFrom c.client.name (if c.pc = .getMessage then [r] else []) := by
  rw [pendingLine_none (HandlerPc.isSimple_lineText simple)]
  by_cases asks : c.pc = .getMessage
  · obtain ⟨rfl, _, next⟩ := move.asked staged asks
    rw [if_pos asks, pendingLine, HandlerPc.getMessage_lineText next, named]
    cases line : r.line <;> simp [CallStage.unsent, linesFrom, line]
  · obtain ⟨_, _, _, _, _, _, _, next, _⟩ := move.simple staged simple
    rw [if_neg asks, pendingLine_none (HandlerPc.resume_lineText next asks)]
    rfl

/-- A step at such a place sends to the own client only. -/
theorem InterleavedMove.simple_sends (move : InterleavedMove s i r c c' stage users sends)
    (staged : c.Staged (s.stage i))
    (simple : c.pc.isSimple = true) (other : j ≠ i) : (sends.filter fun send => send.1 = j).map Prod.snd = [] := by
  obtain ⟨call, reply, sent, _, known, done, split, _⟩ := move.simple staged simple
  rcases ChatState.own_text known simple done split with ⟨rfl, _⟩ | ⟨text, rfl, _⟩
  · rfl
  · simp [Ne.symm other]

/-- While a line is passed on, a step sends it, or it stays on its way. -/
theorem InterleavedMove.passing_balance {text : Bytes} (move : InterleavedMove s i r c c' stage users sends)
    (sorted : SortedUsers s.chat.users) (staged : c.Staged (s.stage i)) (other : j ≠ i)
    (passing : c.pc.lineText = some text) (entry : (key, j) ∈ s.chat.users)
    (keys : ∀ name, (name, j) ∈ s.chat.users → name = key)
    (aimed : ∀ message name, s.stage i = .sending message name j → name = key) :
    linesOf c.client.name ((sends.filter fun send => send.1 = j).map Prod.snd) ++ pendingLine c' j key stage =
      pendingLine c j key (s.stage i) := by
  have place := HandlerPc.place_of_lineText passing
  cases move with
  | refuse _ _ at_ | count _ _ at_ | offline _ _ at_ | close _ _ at_ => cases place.symm.trans at_
  | insert at_ | online at_ | erase at_ =>
    rw [at_] at staged
    cases place.symm.trans staged.1
  | call _ _ known simple =>
    rw [← HandlerPc.isSimple_of_call known, place] at simple
    cases simple
  | notify at_ closing =>
    rw [at_] at staged
    obtain ⟨site, closes⟩ := staged.closing closing
    cases place.symm.trans closes
  | broadcast at_ =>
    rw [at_]
    rfl
  | done at_ last next =>
    have visited := nextUser_none last _ entry
    rw [place] at next
    cases next
    simp [pendingLine, at_, CallStage.unsent, visited, HandlerPc.lineText, linesOf]
  | skip at_ next =>
    have ahead := nextUser_ahead sorted next entry (Ne.symm other)
    simp [pendingLine, at_, CallStage.unsent, ahead, linesOf]
  | @read message name visited t at_ next _ =>
    by_cases here : t = j
    · subst here
      obtain ⟨member, ahead, _⟩ := nextUser_some sorted next
      have same := keys name member
      subst same
      simp [pendingLine, at_, CallStage.unsent, ahead, linesOf]
    · have ahead := nextUser_ahead sorted next entry here
      simp [pendingLine, at_, CallStage.unsent, ahead, here, linesOf]
  | @send message name t at_ =>
    by_cases here : t = j
    · subst here
      rw [at_] at staged
      have same := aimed message name at_
      subst same
      rcases (HandlerPc.broadcast_text staged.1).2 with ⟨silent, _⟩ | ⟨line, passed, rfl⟩
      · cases passing.symm.trans silent
      · simp [pendingLine, at_, CallStage.unsent, passed, linesOf, namePrefix_line]
    · simp [pendingLine, at_, CallStage.unsent, here, linesOf]

/-- What a handler broadcasts apart from the lines is no line. -/
theorem InterleavedMove.quiet_balance (move : InterleavedMove s i r c c' stage users sends)
    (staged : c.Staged (s.stage i))
    (complex : c.pc.isSimple = false) (silent : c.pc.lineText = none) :
    linesOf c.client.name ((sends.filter fun send => send.1 = j).map Prod.snd) ++ pendingLine c' j key stage =
      pendingLine c j key (s.stage i) := by
  obtain ⟨_, place, sent⟩ := move.complex complex
  have after : c'.pc.lineText = none := by
    rcases place with same | ⟨reply, next⟩
    · rw [same]
      exact silent
    · refine HandlerPc.resume_lineText next fun asks => ?_
      rw [asks] at complex
      cases complex
  rw [pendingLine_none silent, pendingLine_none after, List.append_nil]
  rcases sent with rfl | ⟨message, name, t, at_, rfl⟩
  · rfl
  · rw [at_] at staged
    rcases (HandlerPc.broadcast_text staged.1).2 with ⟨_, other⟩ | ⟨line, passed, _⟩
    · by_cases here : t = j <;> simp [linesOf, here, other]
    · cases silent.symm.trans passed

/-- The lines sent to a client and the one on its way are those received. -/
structure PairInv (i j : Nat) (s : InterleavedChat) (past : List RoomEvent) : Prop where
  lines : ∀ c, s.chat.connections[i]? = some c →
    linesOf c.client.name (sentTo i j past) ++ pendingLine c j (s.nameOf j) (s.stage i) =
      linesFrom c.client.name (results i past)
  aimed : ∀ (c : Connection) (message name : Bytes), s.chat.connections[i]? = some c → c.pc.lineText.isSome = true →
    s.stage i = .sending message name j → name = s.nameOf j

theorem RoomInv.nameOf (room : RoomInv s) {name : Bytes} (member : (name, j) ∈ s.chat.users) : name = s.nameOf j := by
  obtain ⟨d, at_, named, _⟩ := room.members _ member
  simp only [InterleavedChat.nameOf, at_, Option.elim_some, named]

theorem lookupUser_mem {name : Bytes} (found : lookupUser name users = some j) : (name, j) ∈ users := by
  obtain ⟨user, first, same⟩ := Option.map_eq_some_iff.mp found
  have here : user.1 = name := by simpa using List.find?_some first
  rw [← here, ← same]
  exact List.mem_of_find?_eq_some first

/-- While a line is passed on, the other client has its entry. -/
theorem staysRegistered_entry {action : ChatAction} (stays : staysRegistered i j (s, past) action = true)
    (found : s.chat.connections[i]? = some c) (passing : c.pc.lineText.isSome = true) :
    (s.nameOf j, j) ∈ s.chat.users := by
  simp only [staysRegistered, found, Option.any_some, passing, Bool.not_true, Bool.false_or] at stays
  cases at_ : s.chat.connections[j]? with
  | none =>
    rw [at_] at stays
    cases stays
  | some d =>
    rw [at_, Option.any_some] at stays
    simp only [InterleavedChat.nameOf, at_, Option.elim_some]
    exact lookupUser_mem (of_decide_eq_true stays)

/-- Before the step that learns the name nothing is received, and nothing is sent to the others. -/
theorem SenderInv.naming (key : Bytes) (sender : SenderInv i s past) (found : s.chat.connections[i]? = some c)
    (naming : c.pc = .getName)
    (move : InterleavedMove s i r c c' stage users sends) (staged : c.Staged (s.stage i)) (other : j ≠ i) :
    results i past = [] ∧ sentTo i j past = [] ∧ pendingLine c' j key stage = [] := by
  obtain ⟨nothing, silent⟩ := sender.new c found (by rw [naming]; rfl)
  obtain ⟨_, _, _, _, _, _, _, next, _⟩ := move.simple staged (by rw [naming]; rfl)
  refine ⟨nothing, silent j other, pendingLine_none (HandlerPc.resume_lineText next fun asks => ?_)⟩
  cases naming.symm.trans asks

theorem PairInv.own_step (inv : PairInv i j s past) (sender : SenderInv i s past) (room : RoomInv s) (other : j ≠ i)
    (stays : staysRegistered i j (s, past) (.handler i r) = true) (found : s.chat.connections[i]? = some c)
    (move : InterleavedMove s i r c c' stage users sends) (effect : StepEffect s i c' stage users sends s') :
    PairInv i j s' (past ++ roomEvents s s' (.handler i r)) := by
  have staged := room.staged i c found
  have here := effect.here found
  have moved := effect.moved
  have still : s'.nameOf j = s.nameOf j := by
    rw [InterleavedChat.nameOf, effect.there (Ne.symm other)]
    rfl
  have gained : results i (past ++ roomEvents s s' (.handler i r)) =
      results i past ++ if c.pc = .getMessage then [r] else [] := by
    simp [results_append, results_handler found effect]
  have added : sentTo i j (past ++ roomEvents s s' (.handler i r)) =
      sentTo i j past ++ (sends.filter fun send => send.1 = j).map Prod.snd := by
    rw [sentTo_append, sentTo_handler found effect, if_pos rfl]
  refine ⟨fun d at_ => ?_, fun d message name at_ passing sending => ?_⟩
  · cases here.symm.trans at_
    rw [gained, added, moved, still]
    have before := inv.lines c found
    by_cases naming : c.pc = .getName
    · obtain ⟨nothing, silent, empty⟩ := sender.naming (s.nameOf j) found naming move staged other
      rw [nothing, silent, empty, move.simple_sends staged (by rw [naming]; rfl) other, naming, if_neg nofun]
      rfl
    · rw [linesOf_append, linesFrom_append]
      cases simple : c.pc.isSimple with
      | true =>
        obtain ⟨_, _, _, _, _, _, _, _, _, named⟩ := move.simple staged simple
        have named := named.resolve_left naming
        rw [move.simple_sends staged simple other, move.simple_balance staged simple named, named, ← before]
        simp [linesOf]
      | false =>
        have named := (move.complex simple).1
        have notAsked : c.pc ≠ .getMessage := by
          intro asks
          rw [asks] at simple
          cases simple
        have balance : linesOf c.client.name ((sends.filter fun send => send.1 = j).map Prod.snd) ++
            pendingLine c' j (s.nameOf j) stage = pendingLine c j (s.nameOf j) (s.stage i) := by
          cases passing : c.pc.lineText with
          | none => exact move.quiet_balance staged simple passing
          | some text =>
            have passes : c.pc.lineText.isSome = true := by rw [passing]; rfl
            exact move.passing_balance room.sorted staged other passing (staysRegistered_entry stays found passes)
              (fun _ => room.nameOf) fun message name => inv.aimed c message name found passes
        rw [named, if_neg notAsked, List.append_assoc, balance, before]
        simp [linesFrom]
  · cases here.symm.trans at_
    rw [moved] at sending
    rw [still]
    cases move with
    | read at_ next =>
      cases sending
      exact room.nameOf (nextUser_some room.sorted next).1
    | _ => cases sending

/-- What a step that is not its own does to a handler and its client. -/
structure LeftAlone (s s' : InterleavedChat) (i : Nat) : Prop where
  stage : s'.stage i = s.stage i
  unborn : s'.chat.connections[i]? = none → s.chat.connections[i]? = none
  place : ∀ d, s'.chat.connections[i]? = some d →
    (∃ c, s.chat.connections[i]? = some c ∧ d.client = c.client ∧
      (d.pc = c.pc ∨ c.pc = .notStarted ∧ d.pc = .welcome)) ∨
      s.chat.connections[i]? = none ∧ d = {}

theorem interleavedStep_other {maxConcurrentClients : Int} {action : ChatAction} (room : RoomInv s)
    (step : interleavedStep maxConcurrentClients s action = some s') (other : ∀ r, action ≠ .handler i r) :
    LeftAlone s s' i := by
  rcases interleavedStep_cases step with ⟨k, r, rfl, step⟩ | ⟨background, chat, rfl, stepped⟩
  · obtain ⟨c, c', stage, users, sends, found, move, effect⟩ := interleavedHandler_move step
    have apart : k ≠ i := fun same => other r (same ▸ rfl)
    have there := effect.there apart
    exact ⟨effect.still apart, fun outside => there ▸ outside, fun d at_ => Or.inl ⟨d, there ▸ at_, rfl, Or.inl rfl⟩⟩
  · obtain ⟨_, _, move⟩ := chatStep_background stepped background
    refine ⟨rfl, fun outside => ?_, fun d at_ => ?_⟩
    · cases found : s.chat.connections[i]? with
      | none => rfl
      | some c =>
        obtain ⟨d, at_⟩ := move.born found
        cases at_.symm.trans outside
    · rcases move.client at_ with ⟨c, found, client, same | ⟨spawning, started⟩⟩ | new
      · exact Or.inl ⟨c, found, client, Or.inl same⟩
      · obtain ⟨e, held, waiting⟩ := room.held i (spawning ▸ rfl)
        cases found.symm.trans held
        exact Or.inl ⟨c, found, client, Or.inr ⟨waiting, started⟩⟩
      · exact Or.inr new

/-- A step is one of this handler, or leaves it alone. -/
theorem interleavedStep_split {maxConcurrentClients : Int} {action : ChatAction} (i : Nat) (room : RoomInv s)
    (step : interleavedStep maxConcurrentClients s action = some s') :
    (∃ r c c' stage users sends, action = .handler i r ∧ s.chat.connections[i]? = some c ∧
      InterleavedMove s i r c c' stage users sends ∧ StepEffect s i c' stage users sends s') ∨
    (∀ r, action ≠ .handler i r) ∧ LeftAlone s s' i := by
  by_cases own : ∃ r, action = .handler i r
  · obtain ⟨r, rfl⟩ := own
    obtain ⟨c, c', stage, users, sends, found, move, effect⟩ := interleavedHandler_move step
    exact Or.inl ⟨r, c, c', stage, users, sends, rfl, found, move, effect⟩
  · have other : ∀ r, action ≠ .handler i r := fun r same => own ⟨r, same⟩
    exact Or.inr ⟨other, interleavedStep_other room step other⟩

theorem SenderInv.step {maxConcurrentClients : Int} {action : ChatAction} (inv : SenderInv i s past) (room : RoomInv s)
    (step : interleavedStep maxConcurrentClients s action = some s') :
    SenderInv i s' (past ++ roomEvents s s' action) := by
  rcases interleavedStep_split i room step with ⟨r, c, c', stage, users, sends, rfl, found, move, effect⟩ |
    ⟨other, left⟩
  · exact inv.own_step room found move effect
  · have silent : results i (roomEvents s s' action) = [] := (roomEvents_other (j := 0) other).1
    refine inv.keep left.stage ?_ (fun j => ?_) left.unborn fun d at_ => ?_
    · rw [results_append, silent, List.append_nil]
    · rw [sentTo_append, (roomEvents_other other).2, List.append_nil]
    · rcases left.place d at_ with ⟨c, found, _, place⟩ | ⟨outside, rfl⟩
      · exact Or.inl ⟨c, found, place⟩
      · exact Or.inr ⟨outside, rfl⟩

theorem Connection.Staged.named_of_inside (staged : c.Staged stage) (inside : c.Inside stage) : c.pc ≠ .getName := by
  intro naming
  have named := staged.named inside
  rw [naming] at named
  cases named

/-- A client with an entry keeps its name. -/
theorem nameOf_keep {maxConcurrentClients : Int} {action : ChatAction} {name : Bytes} (room : RoomInv s)
    (step : interleavedStep maxConcurrentClients s action = some s') (entry : (name, j) ∈ s.chat.users) :
    s'.nameOf j = s.nameOf j := by
  obtain ⟨d, at_, _, inside⟩ := room.members _ entry
  have staged := room.staged j d at_
  have unnamed := staged.named_of_inside inside
  rcases interleavedStep_split j room step with ⟨r, c, c', stage, users, sends, rfl, found, move, effect⟩ | ⟨_, left⟩
  · cases at_.symm.trans found
    have here := effect.here found
    have named : c'.client.name = d.client.name := by
      cases simple : d.pc.isSimple with
      | true =>
        obtain ⟨_, _, _, _, _, _, _, _, _, named⟩ := move.simple staged simple
        exact named.resolve_left unnamed
      | false => exact (move.complex simple).1
    simp only [InterleavedChat.nameOf, here, at_, Option.elim_some, named]
  · cases after : s'.chat.connections[j]? with
    | none => cases at_.symm.trans (left.unborn after)
    | some e =>
      rcases left.place e after with ⟨c, found, client, _⟩ | ⟨outside, _⟩
      · cases found.symm.trans at_
        simp only [InterleavedChat.nameOf, after, found, Option.elim_some, client]
      · cases at_.symm.trans outside

theorem PairInv.step {maxConcurrentClients : Int} {action : ChatAction} (inv : PairInv i j s past)
    (sender : SenderInv i s past) (room : RoomInv s) (apart : j ≠ i)
    (stays : staysRegistered i j (s, past) action = true)
    (step : interleavedStep maxConcurrentClients s action = some s') :
    PairInv i j s' (past ++ roomEvents s s' action) := by
  rcases interleavedStep_split i room step with ⟨r, c, c', stage, users, sends, rfl, found, move, effect⟩ |
    ⟨other, left⟩
  · exact inv.own_step sender room apart stays found move effect
  · have unchanged : results i (roomEvents s s' action) = [] ∧ sentTo i j (roomEvents s s' action) = [] :=
      roomEvents_other other
    refine ⟨fun d at_ => ?_, fun d message name at_ passing sending => ?_⟩
    · rw [results_append, sentTo_append, unchanged.1, unchanged.2, List.append_nil, List.append_nil, left.stage]
      rcases left.place d at_ with ⟨c, found, client, place⟩ | ⟨outside, rfl⟩
      · have before := inv.lines c found
        rw [client]
        cases passing : c.pc.lineText with
        | none =>
          have silent : d.pc.lineText = none := by
            rcases place with same | ⟨_, started⟩
            · rw [same, passing]
            · rw [started]
              rfl
          rwa [pendingLine_none silent, ← pendingLine_none passing]
        | some text =>
          have entry := staysRegistered_entry stays found (by rw [passing]; rfl)
          have same : d.pc = c.pc := by
            rcases place with same | ⟨waiting, _⟩
            · exact same
            · rw [waiting] at passing
              cases passing
          rw [nameOf_keep room step entry, pendingLine, same, client]
          exact before
      · obtain ⟨nothing, silent⟩ := sender.unborn outside
        rw [nothing, silent, pendingLine_none rfl]
        rfl
    · rw [left.stage] at sending
      rcases left.place d at_ with ⟨c, found, _, place⟩ | ⟨_, rfl⟩
      · rcases place with same | ⟨_, started⟩
        · rw [same] at passing
          rw [nameOf_keep room step (staysRegistered_entry stays found passing)]
          exact inv.aimed c message name found passing sending
        · rw [started] at passing
          cases passing
      · cases passing

theorem SenderInv.start : SenderInv i .start [] := ⟨fun _ => ⟨rfl, fun _ => rfl⟩, nofun, nofun, nofun, nofun, nofun⟩

/-- What a handler sends, in every run. -/
theorem sender_inv {maxConcurrentClients : Int} (reach : (deliveringChat maxConcurrentClients).Reach (s, past)) :
    RoomInv s ∧ SenderInv i s past := by
  refine reach.invariant (I := fun t => RoomInv t.1 ∧ SenderInv i t.1 t.2) ?_ ?_
  · intro t initial
    cases initial
    exact ⟨.start, .start⟩
  · intro ⟨s, past⟩ action ⟨s', past'⟩ _ ⟨room, sender⟩ step
    obtain ⟨moved, rfl⟩ := deliveringChat_step step
    exact ⟨room.step moved, sender.step room moved⟩

theorem pair_inv {maxConcurrentClients : Int} (apart : j ≠ i)
    (via : (deliveringChat maxConcurrentClients).ReachVia (staysRegistered i j) (s, past)) : PairInv i j s past := by
  suffices (RoomInv s ∧ SenderInv i s past) ∧ PairInv i j s past from this.2
  refine via.invariant (I := fun t => (RoomInv t.1 ∧ SenderInv i t.1 t.2) ∧ PairInv i j t.1 t.2) ?_ ?_
  · intro t initial
    cases initial
    exact ⟨⟨.start, .start⟩, ⟨nofun, nofun⟩⟩
  · intro ⟨s, past⟩ action ⟨s', past'⟩ ⟨⟨room, sender⟩, pair⟩ stays step
    obtain ⟨moved, rfl⟩ := deliveringChat_step step
    exact ⟨⟨room.step moved, sender.step room moved⟩, pair.step sender room apart stays moved⟩

end PCProject
