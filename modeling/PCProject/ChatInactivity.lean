import PCProject.ChatHearing
import PCProject.ChatReceive

namespace PCProject

def timeoutNotice : Bytes := ascii "<SERVER> Connection timed out"

/-- What a handler does about a client that is not active, and where it calls `close_`. -/
inductive Inactivity
  | timedOut
  | notice
  | closed
  deriving DecidableEq

def ChatEvent.inactivity (e : ChatEvent) : Option Inactivity :=
  match e.call, e.reply with
  | .getName, .received .timeout | .getMessage, .received .timeout => some .timedOut
  | .send message, _ => if message = timeoutNotice then some .notice else none
  | .close, _ => some .closed
  | _, _ => none

def inactivity (i : Nat) (past : List ChatEvent) : List Inactivity :=
  past.filterMap fun e => if e.connection = i then e.inactivity else none

/-- `poll` has not timed out while the name was awaited. -/
def Named (rs : List Received) : Prop := ∃ name later, rs = name :: later ∧ name ≠ .timeout

/-- The client has been told of a timeout if there was one, unless it was its name that was awaited. -/
def Ended (xs : List Inactivity) (rs : List Received) : Prop :=
  (xs = [.closed] ∨ xs = [.closed, .closed] ∨ xs = [.timedOut, .notice, .closed]) ∧ Named rs ∨
    xs = [.timedOut, .closed] ∧ rs = [.timeout]

/-- What a handler has done about a client that is not active, and what it has heard, for each of its places. -/
def Waiting (pc : HandlerPc) (online : Bool) (xs : List Inactivity) (rs : List Received) : Prop :=
  match pc with
  | .notStarted | .welcome | .getName => xs = [] ∧ rs = [] ∧ online = false
  | .nameTimedOut => False
  | .register | .close .refused => xs = [] ∧ Named rs ∧ online = false
  | .close .unnamed => xs = [] ∧ Named rs ∨ xs = [.timedOut] ∧ rs = [.timeout]
  | .broadcastJoin | .loop => (xs = [] ∨ online = false ∧ (xs = [.closed] ∨ xs = [.timedOut, .notice])) ∧ Named rs
  | .getMessage | .list | .broadcastMessage _ => xs = [] ∧ Named rs
  | .timedOut => xs = [.timedOut] ∧ Named rs
  | .unregister => (xs = [] ∨ xs = [.timedOut, .notice]) ∧ Named rs
  | .broadcastLeave | .close .leaving => (xs = [] ∨ xs = [.closed] ∨ xs = [.timedOut, .notice]) ∧ Named rs
  | .delete => (xs = [.closed] ∨ xs = [.closed, .closed] ∨ xs = [.timedOut, .notice, .closed]) ∧ Named rs
  | .returned => Ended xs rs

variable {s s' : ChatState} {i : Nat} {r : Received} {c : Connection} {past : List ChatEvent}
  {xs : List Inactivity} {rs : List Received}

theorem Named.append (named : Named rs) (more : List Received) : Named (rs ++ more) := by
  obtain ⟨name, later, rfl, known⟩ := named
  exact ⟨name, later ++ more, rfl, known⟩

theorem HandlerPc.timeout_of_resume (next : HandlerPc.getMessage.resume (.received r) = some .timedOut) :
    r = .timeout := by
  cases r with
  | timeout => rfl
  | text message =>
    simp only [resume, Received.timedOut, Bool.false_eq_true, if_false, Option.some.injEq] at next
    repeat' split at next
    all_goals cases next

theorem Waiting.silent {pc : HandlerPc} {online : Bool} {e : ChatEvent} (quiet : e.inactivity = none)
    (deaf : e.heard = none) (waiting : Waiting pc online xs rs) :
    Waiting pc online (xs ++ e.inactivity.toList) (rs ++ e.heard.toList) := by
  rw [quiet, deaf, Option.toList_none, Option.toList_none, List.append_nil, List.append_nil]
  exact waiting

/-- A call of the handler, with what it says or hears. -/
theorem Waiting.call {call : ChatCall} {reply : Reply} {client : Client} {users : Users} {sent : List (Nat × Bytes)}
    {pc : HandlerPc} (waiting : Waiting c.pc c.client.isOnline xs rs) (known : c.pc.call c.client.name = some call)
    (done : s.perform i c.client r call = some (reply, client, users, sent)) (next : c.pc.resume reply = some pc) :
    Waiting pc client.isOnline (xs ++ (ChatEvent.inactivity ⟨i, c.client.name, call, reply⟩).toList)
      (rs ++ (ChatEvent.heard ⟨i, c.client.name, call, reply⟩).toList) := by
  have does := handlerCall known done next
  generalize c.pc = place at waiting does
  cases does with
  | nameTimedOut => exact waiting.elim
  | welcome =>
    obtain ⟨rfl, rfl, offline⟩ := waiting
    exact ⟨rfl, rfl, offline⟩
  | getName next =>
    obtain ⟨rfl, rfl, offline⟩ := waiting
    cases r with
    | timeout =>
      cases next
      exact Or.inr ⟨rfl, rfl⟩
    | text message =>
      have named : Named [.text message] := ⟨_, [], rfl, nofun⟩
      simp only [HandlerPc.resume, Received.message, Received.timedOut, Bool.false_eq_true, if_false,
        Option.some.injEq] at next
      subst next
      split
      · exact Or.inl ⟨rfl, named⟩
      · exact ⟨rfl, named, offline⟩
  | refused =>
    obtain ⟨rfl, named, offline⟩ := waiting
    exact ⟨rfl, named.append [], offline⟩
  | accepted =>
    obtain ⟨rfl, named, _⟩ := waiting
    exact ⟨Or.inl rfl, named.append []⟩
  | broadcastJoin | broadcastLeave => exact .silent rfl rfl waiting
  | loop =>
    obtain ⟨marks, named⟩ := waiting
    cases online : c.client.isOnline with
    | true =>
      rw [online] at marks
      rcases marks with rfl | ⟨offline, _⟩
      · exact ⟨rfl, named.append []⟩
      · cases offline
    | false => exact .silent rfl rfl ⟨marks.imp_right And.right, named⟩
  | getMessage next =>
    obtain ⟨rfl, named⟩ := waiting
    cases r with
    | timeout =>
      cases next
      exact ⟨rfl, named.append _⟩
    | text message =>
      rcases HandlerPc.resume_getMessage next with ⟨_, rfl | rfl⟩ | ⟨_, rfl | rfl⟩
      · cases HandlerPc.timeout_of_resume next
      · exact ⟨Or.inl rfl, named.append _⟩
      · exact ⟨rfl, named.append _⟩
      · exact ⟨rfl, named.append _⟩
  | timedOut notice =>
    obtain ⟨rfl, named⟩ := waiting
    cases notice
    exact ⟨Or.inr rfl, named.append []⟩
  | unregister =>
    obtain ⟨rfl | rfl, named⟩ := waiting
    · exact ⟨Or.inl rfl, named.append []⟩
    · exact ⟨Or.inr ⟨rfl, Or.inr rfl⟩, named.append []⟩
  | list | broadcastMessage =>
    obtain ⟨rfl, named⟩ := waiting
    exact ⟨Or.inl rfl, named.append []⟩
  | delete => exact .silent rfl rfl (Or.inl waiting)

/-- `close_` leaves `handle_client` where it was called. -/
theorem Waiting.closed {site : CloseSite} {pc : HandlerPc} {online : Bool}
    (waiting : Waiting (.close site) online xs rs) (next : (HandlerPc.close site).resume .done = some pc) :
    Waiting pc online (xs ++ [.closed]) rs := by
  cases site with
  | unnamed =>
    cases next
    rcases waiting with ⟨rfl, named⟩ | ⟨rfl, late⟩
    · exact Or.inl ⟨Or.inl rfl, named⟩
    · exact Or.inr ⟨rfl, late⟩
  | refused =>
    cases next
    obtain ⟨rfl, named, offline⟩ := waiting
    exact ⟨Or.inr ⟨offline, Or.inl rfl⟩, named⟩
  | leaving =>
    cases next
    obtain ⟨rfl | rfl | rfl, named⟩ := waiting
    · exact ⟨Or.inl rfl, named⟩
    · exact ⟨Or.inr (Or.inl rfl), named⟩
    · exact ⟨Or.inr (Or.inr rfl), named⟩

/-- The same of a connection, which may be inside `close_`. -/
def Connection.Waits (c : Connection) (es : List ChatEvent) : Prop :=
  ∃ xs, es.filterMap ChatEvent.inactivity = xs ++ (if c.closing then [.closed] else []) ∧
    Waiting c.pc c.client.isOnline xs (es.filterMap ChatEvent.heard)

theorem waiting_rule (i : Nat) : ConnectionRule i Connection.Waits where
  new := ⟨[], rfl, rfl, rfl, rfl⟩
  spawned c es waits place := by
    obtain ⟨xs, marks, waiting⟩ := waits
    rw [place] at waiting
    exact ⟨xs, marks, waiting⟩
  counted c es waits := waits
  notified c es site pc waits closing place next := by
    obtain ⟨xs, marks, waiting⟩ := waits
    rw [place] at waiting
    rw [closing, if_pos rfl] at marks
    exact ⟨xs ++ [.closed], by simpa using marks, waiting.closed next⟩
  closed c es site waits idle place := by
    obtain ⟨xs, marks, waiting⟩ := waits
    rw [idle, if_neg Bool.false_ne_true, List.append_nil] at marks
    refine ⟨xs, ?_, ?_⟩
    · rw [List.filterMap_append, marks, filterMap_one, if_pos rfl]
      rfl
    · rw [List.filterMap_append, filterMap_one]
      exact (List.append_nil _).symm ▸ waiting
  called s r c es call reply client users sent pc waits idle known done next := by
    obtain ⟨xs, marks, waiting⟩ := waits
    rw [idle, if_neg Bool.false_ne_true, List.append_nil] at marks
    refine ⟨xs ++ (ChatEvent.inactivity ⟨i, c.client.name, call, reply⟩).toList, ?_, ?_⟩
    · rw [List.filterMap_append, marks, filterMap_one, idle, if_neg Bool.false_ne_true, List.append_nil]
    · rw [List.filterMap_append, filterMap_one]
      exact waiting.call known done next

/-- What is known once `close_` has been called. -/
theorem Waiting.ended {pc : HandlerPc} {online : Bool} (waiting : Waiting pc online xs rs) (closed : .closed ∈ xs) :
    Ended xs rs := by
  have open_ : xs = [] ∨ xs = [.timedOut] ∨ xs = [.timedOut, .notice] → Ended xs rs := by
    rintro (rfl | rfl | rfl) <;> simp at closed
  cases pc with
  | notStarted | welcome | getName | register | getMessage | list | broadcastMessage => exact open_ (Or.inl waiting.1)
  | nameTimedOut => exact waiting.elim
  | broadcastJoin | loop =>
    obtain ⟨none | ⟨_, once | told⟩, named⟩ := waiting
    · exact open_ (Or.inl none)
    · exact Or.inl ⟨Or.inl once, named⟩
    · exact open_ (Or.inr (Or.inr told))
  | timedOut => exact open_ (Or.inr (Or.inl waiting.1))
  | unregister => exact open_ (waiting.1.imp_right Or.inr)
  | broadcastLeave =>
    obtain ⟨none | once | told, named⟩ := waiting
    · exact open_ (Or.inl none)
    · exact Or.inl ⟨Or.inl once, named⟩
    · exact open_ (Or.inr (Or.inr told))
  | close site =>
    cases site with
    | unnamed => exact open_ (waiting.imp And.left fun late => Or.inl late.1)
    | refused => exact open_ (Or.inl waiting.1)
    | leaving =>
      obtain ⟨none | once | told, named⟩ := waiting
      · exact open_ (Or.inl none)
      · exact Or.inl ⟨Or.inl once, named⟩
      · exact open_ (Or.inr (Or.inr told))
  | delete => exact Or.inl waiting
  | returned => exact waiting

theorem Connection.Waits.ended {es : List ChatEvent} (waits : c.Waits es)
    (closing : c.closing = true → ∃ site, c.pc = .close site) (closed : .closed ∈ es.filterMap ChatEvent.inactivity) :
    Ended (es.filterMap ChatEvent.inactivity) (es.filterMap ChatEvent.heard) := by
  obtain ⟨xs, marks, waiting⟩ := waits
  cases inside : c.closing with
  | false =>
    rw [inside, if_neg Bool.false_ne_true, List.append_nil] at marks
    rw [marks] at closed ⊢
    exact waiting.ended closed
  | true =>
    rw [inside, if_pos rfl] at marks
    rw [marks] at closed ⊢
    obtain ⟨site, place⟩ := closing inside
    rw [place] at waiting
    obtain ⟨pc, next⟩ : ∃ pc, (HandlerPc.close site).resume .done = some pc := by cases site <;> exact ⟨_, rfl⟩
    exact (waiting.closed next).ended closed

theorem inactivity_ownEvents (i : Nat) (past : List ChatEvent) :
    inactivity i past = (ownEvents i past).filterMap ChatEvent.inactivity := by
  simp [inactivity, ownEvents, List.filterMap_filter]

theorem inactivity_append (i : Nat) (past more : List ChatEvent) :
    inactivity i (past ++ more) = inactivity i past ++ inactivity i more := List.filterMap_append

theorem ended_of_closed {maxConcurrentClients : Int} (reach : (tracedChat maxConcurrentClients).Reach (s, past))
    (closed : .closed ∈ inactivity i past) : Ended (inactivity i past) (heard i past) := by
  have inv := (waiting_rule i).invariant reach
  cases found : s.connections[i]? with
  | none =>
    rw [inactivity_ownEvents, inv.unborn found] at closed
    cases closed
  | some c =>
    rw [inactivity_ownEvents] at closed ⊢
    rw [heard_ownEvents]
    exact (inv.holds c found).ended ((notice_inv reach).trails i c found).closing closed

/-- No broadcast reads like the notice. -/
theorem HandlerPc.broadcast_ne_notice {pc : HandlerPc} {name text : Bytes}
    (known : pc.call name = some (.broadcast text)) : text ≠ timeoutNotice := by
  intro same
  have front := congrArg (List.take 11) same
  cases pc with
  | broadcastJoin | broadcastLeave | broadcastMessage =>
    cases known
    simp [timeoutNotice, ascii] at front
  | _ => cases known

/-- No list of users does. -/
theorem HandlerPc.userlist_ne_notice {pc : HandlerPc} {name header : Bytes}
    (known : pc.call name = some (.sendUserlist header)) (users : Users) :
    header ++ userlist users ≠ timeoutNotice := by
  intro same
  have front := congrArg (List.take 11) same
  cases pc with
  | welcome | list =>
    cases known
    simp [timeoutNotice, ascii] at front
  | _ => cases known

theorem inactivity_one (i : Nat) (e : ChatEvent) :
    inactivity i [e] = if e.connection = i then e.inactivity.toList else [] := by
  rw [inactivity, filterMap_one]
  split <;> rfl

/-- A call that does not send the notice. -/
theorem inactivity_quiet {e : ChatEvent} (quiet : e.inactivity ≠ some .notice) :
    (inactivity i [e]).count .notice = 0 := by
  rw [inactivity_one]
  split
  · cases mark : e.inactivity with
    | none => rfl
    | some x =>
      have other : x ≠ .notice := fun same => quiet (mark.trans (congrArg some same))
      exact List.count_singleton.trans (if_neg (by simpa using other))
  · rfl

/-- The notice reaches a client only from its own handler. -/
theorem HandlerTrace.sent_notices {k : Nat} {events : List ChatEvent} (move : HandlerTrace s k r c s' events) :
    s'.sent.count (i, timeoutNotice) = s.sent.count (i, timeoutNotice) + (inactivity i events).count .notice := by
  cases move with
  | notify => rfl
  | close =>
    rw [inactivity_quiet (by simp [ChatEvent.inactivity])]
    rfl
  | @call call reply client users sent pc idle known done next =>
    cases call with
    | send message =>
      cases done
      by_cases notice : message = timeoutNotice
      · subst notice
        by_cases same : k = i
        · simp [inactivity_one, same, ChatEvent.inactivity]
        · simp [inactivity_one, same]
      · rw [inactivity_quiet (by simp [ChatEvent.inactivity, notice])]
        simp [notice]
    | sendUserlist header =>
      cases done
      have other := HandlerPc.userlist_ne_notice known s.users
      rw [inactivity_quiet (by simp [ChatEvent.inactivity])]
      simp [other]
    | broadcast message =>
      cases done
      have none_ : ∀ users : Users, (users.map fun user => (user.2, message)).count (i, timeoutNotice) = 0 := by
        intro users
        refine List.count_eq_zero.mpr fun member => ?_
        obtain ⟨user, -, same⟩ := List.mem_map.mp member
        exact HandlerPc.broadcast_ne_notice known (Prod.mk.inj same).2
      rw [inactivity_quiet (by simp [ChatEvent.inactivity]), List.count_append, none_]
    | close => cases done
    | getName | getMessage =>
      cases done
      rw [inactivity_quiet (by cases r <;> simp [ChatEvent.inactivity]), Nat.add_zero]
    | register =>
      simp only [ChatState.perform] at done
      split at done
      · cases done
        rw [inactivity_quiet (by simp [ChatEvent.inactivity]), Nat.add_zero]
      · cases done
        rw [inactivity_quiet (by simp [ChatEvent.inactivity]), Nat.add_zero]
    | unregister | isOnline | delete =>
      cases done
      rw [inactivity_quiet (by simp [ChatEvent.inactivity]), Nat.add_zero]

theorem sent_notices {maxConcurrentClients : Int} (reach : (tracedChat maxConcurrentClients).Reach (s, past)) :
    s.sent.count (i, timeoutNotice) = (inactivity i past).count .notice := by
  refine reach.invariant
    (I := fun state => state.1.sent.count (i, timeoutNotice) = (inactivity i state.2).count .notice) ?_ ?_
  · intro state initial
    cases initial
    rfl
  · intro ⟨s, past⟩ action ⟨s', past'⟩ _ same step
    obtain ⟨moved, rfl⟩ := tracedChat_step step
    rw [inactivity_append, List.count_append, ← same]
    by_cases handler : ∃ k r, action = .handler k r
    · obtain ⟨k, r, rfl⟩ := handler
      obtain ⟨c, -, -, move⟩ := handlerStep_trace moved
      exact move.sent_notices
    · have background : ∀ k r, action ≠ .handler k r := fun k r same => handler ⟨k, r, same⟩
      have silent : s.event action = none := by
        cases action with
        | handler k r => exact absurd rfl (background k r)
        | _ => rfl
      rw [silent, (chatStep_background moved background).2.1]
      rfl

/-- A client that times out is sent the notice once, before its handler calls `close_`, and no other client is. -/
structure ToldOfTimeout (i : Nat) (s : ChatState) (past : List ChatEvent) : Prop where
  order : .timedOut ∈ inactivity i past → inactivity i past = [.timedOut, .notice, .closed]
  count : s.sent.count (i, timeoutNotice) = if .timedOut ∈ inactivity i past then 1 else 0

/-- `get_message` reports a timeout exactly if `poll` does. -/
theorem Client.receive_timeout {timeout : Int} (positive : 0 < timeout) (poll : PollAnswer) (recv : RecvAnswer) :
    Client.receive timeout poll recv = some .timeout ↔ poll = .timedOut := by
  have limited : timeout ≠ -1 := by omega
  unfold Client.receive
  cases poll with
  | timedOut => simp [limited]
  | failed => simp [limited]
  | ready =>
    cases recv with
    | closed | failed => simp
    | received bytes => simp

/-- The clients whose connection is closed are told of a timeout exactly if it was not their name that was awaited. -/
theorem timeouts_told_iff {maxConcurrentClients timeout : Int} (positive : 0 < timeout)
    (reach : (tracedChat maxConcurrentClients).Reach (s, past)) (closed : .closed ∈ inactivity i past) :
    (∀ poll recv, Client.receive timeout poll recv = some .timeout ↔ poll = .timedOut) ∧
      (ToldOfTimeout i s past ↔ (heard i past).head? ≠ some .timeout) := by
  refine ⟨Client.receive_timeout positive, ?_⟩
  have sent := sent_notices reach (i := i)
  rcases ended_of_closed reach closed with ⟨marks, name, later, hears, known⟩ | ⟨marks, hears⟩
  · refine iff_of_true ?_ ?_
    · rcases marks with marks | marks | marks
      · rw [marks] at sent
        exact ⟨by simp [marks], by simpa [marks] using sent⟩
      · rw [marks] at sent
        exact ⟨by simp [marks], by simpa [marks] using sent⟩
      · rw [marks] at sent
        exact ⟨fun _ => marks, by simpa [marks] using sent⟩
    · rw [hears]
      exact fun same => known (Option.some.inj same)
  · refine iff_of_false (fun told => ?_) fun other => other (by rw [hears]; rfl)
    have order := told.order (by simp [marks])
    rw [marks] at order
    cases order

/-- Main accepts a connection and starts its handler, which sends the welcome. -/
def oneArrives : List ChatAction := List.replicate 6 (.main true) ++ [.handler 0 .timeout]

/-- Ann gives her name and then nothing more. -/
theorem timeouts_told_ann :
    ∃ s past, (tracedChat 1).exec (.start, []) (oneArrives ++ [.handler 0 (.text (ascii "ann"))] ++
        List.replicate 11 (.handler 0 .timeout)) = some (s, past) ∧
      (0, timeoutNotice) ∈ s.sent ∧ ToldOfTimeout 0 s past := by
  obtain ⟨s, past, run, closed, named, sent⟩ : ∃ s past,
      (tracedChat 1).exec (.start, []) (oneArrives ++ [.handler 0 (.text (ascii "ann"))] ++
        List.replicate 11 (.handler 0 .timeout)) = some (s, past) ∧ .closed ∈ inactivity 0 past ∧
      (heard 0 past).head? = some (.text (ascii "ann")) ∧ (0, timeoutNotice) ∈ s.sent :=
    ⟨_, _, rfl, by decide, rfl, by decide⟩
  have told := (timeouts_told_iff (by decide : (0 : Int) < 30) (.exec (.start rfl) run) closed).2
  refine ⟨s, past, run, sent, told.mpr ?_⟩
  rw [named]
  exact nofun

/-- A client that gives no name is closed without the notice. -/
theorem timeout_not_told :
    ∃ s past, (tracedChat 1).Reach (s, past) ∧ inactivity 0 past = [.timedOut, .closed] ∧
      (0, timeoutNotice) ∉ s.sent ∧ ¬ToldOfTimeout 0 s past := by
  have run : (tracedChat 1).exec (.start, []) (oneArrives ++ List.replicate 3 (.handler 0 .timeout)) =
      some (_, _) := rfl
  refine ⟨_, _, .exec (.start rfl) run, rfl, by decide, fun told => ?_⟩
  exact absurd (told.order (by decide)) (by decide)

end PCProject
