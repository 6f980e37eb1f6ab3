import PCProject.ChatNotices

namespace PCProject

/-- The calls of the handler of one connection. -/
def ownEvents (i : Nat) (past : List ChatEvent) : List ChatEvent := past.filter fun e => e.connection = i

/-- What has to be shown of a property of a connection and the calls of its handler: a new connection
has it, and every move of the connection keeps it. -/
structure ConnectionRule (i : Nat) (P : Connection → List ChatEvent → Prop) : Prop where
  new : P {} []
  spawned : ∀ c es, P c es → c.pc = .notStarted → P { c with pc := .welcome } es
  counted : ∀ c es, P c es → P { c with closes := c.closes + 1 } es
  notified : ∀ c es site pc, P c es → c.closing = true → c.pc = .close site →
    (HandlerPc.close site).resume .done = some pc → P { c with pc := pc, closing := false } es
  closed : ∀ c es site, P c es → c.closing = false → c.pc = .close site →
    P { c with closing := true, closes := c.closes + 1 } (es ++ [⟨i, c.client.name, .close, .done⟩])
  called : ∀ (s : ChatState) r c es call reply client users sent pc, P c es → c.closing = false →
    c.pc.call c.client.name = some call → s.perform i c.client r call = some (reply, client, users, sent) →
    c.pc.resume reply = some pc → P { c with client := client, pc := pc } (es ++ [⟨i, c.client.name, call, reply⟩])

/-- The property holds of a connection and the calls of its handler, and there are none before it is accepted. -/
structure ConnectionHolds (i : Nat) (P : Connection → List ChatEvent → Prop) (s : ChatState) (past : List ChatEvent) :
    Prop where
  holds : ∀ c, s.connections[i]? = some c → P c (ownEvents i past)
  unborn : s.connections[i]? = none → ownEvents i past = []

variable {s s' : ChatState} {i : Nat} {r : Received} {c : Connection} {past : List ChatEvent}
  {P : Connection → List ChatEvent → Prop}

theorem ownEvents_append (i : Nat) (past more : List ChatEvent) :
    ownEvents i (past ++ more) = ownEvents i past ++ ownEvents i more := List.filter_append ..

theorem ownEvents_self (i : Nat) (name : Bytes) (call : ChatCall) (reply : Reply) :
    ownEvents i [⟨i, name, call, reply⟩] = [⟨i, name, call, reply⟩] := by
  simp [ownEvents]

theorem ownEvents_other {k : Nat} (other : k ≠ i) (name : Bytes) (call : ChatCall) (reply : Reply) :
    ownEvents i [⟨k, name, call, reply⟩] = [] := by
  simp [ownEvents, other]

theorem filterMap_one {α : Type} (f : ChatEvent → Option α) (e : ChatEvent) : [e].filterMap f = (f e).toList := by
  rw [List.filterMap_cons]
  cases f e <;> rfl

/-- One connection moves on. -/
theorem ConnectionHolds.set {k : Nat} {c' : Connection} {past' : List ChatEvent} (inv : ConnectionHolds i P s past)
    (found : s.connections[k]? = some c) (connections : s'.connections = s.connections.set k c')
    (own : k = i → P c' (ownEvents i past')) (others : k ≠ i → ownEvents i past' = ownEvents i past) :
    ConnectionHolds i P s' past' := by
  have inside := (List.getElem?_eq_some_iff.mp found).1
  by_cases same : k = i
  · subst same
    have here : s'.connections[k]? = some c' := by
      rw [connections]
      exact List.getElem?_set_self inside
    refine ⟨fun d at_ => ?_, fun outside => ?_⟩
    · cases here.symm.trans at_
      exact own rfl
    · cases here.symm.trans outside
  · have there : s'.connections[i]? = s.connections[i]? := by rw [connections, List.getElem?_set_ne same]
    refine ⟨fun d at_ => ?_, fun outside => ?_⟩
    · rw [others same]
      exact inv.holds d (there ▸ at_)
    · rw [others same]
      exact inv.unborn (there ▸ outside)

theorem ConnectionHolds.handler {k : Nat} {events : List ChatEvent} (rule : ConnectionRule i P)
    (inv : ConnectionHolds i P s past) (found : s.connections[k]? = some c)
    (closing : c.closing = true → ∃ site, c.pc = .close site) (move : HandlerTrace s k r c s' events) :
    ConnectionHolds i P s' (past ++ events) := by
  cases move with
  | notify closes next =>
    rw [List.append_nil]
    refine inv.set found rfl (fun same => ?_) fun _ => rfl
    subst same
    obtain ⟨site, place⟩ := closing closes
    exact rule.notified c _ site _ (inv.holds c found) closes place (place ▸ next)
  | close idle place =>
    refine inv.set found rfl (fun same => ?_) fun other => ?_
    · subst same
      rw [ownEvents_append, ownEvents_self]
      exact rule.closed c _ _ (inv.holds c found) idle place
    · rw [ownEvents_append, ownEvents_other other, List.append_nil]
  | call idle known done next =>
    refine inv.set found rfl (fun same => ?_) fun other => ?_
    · subst same
      rw [ownEvents_append, ownEvents_self]
      exact rule.called s r c _ _ _ _ _ _ _ (inv.holds c found) idle known done next
    · rw [ownEvents_append, ownEvents_other other, List.append_nil]

theorem ConnectionHolds.main (rule : ConnectionRule i P) (inv : ConnectionHolds i P s past)
    (held : s.main.Holds i → ∃ c, s.connections[i]? = some c ∧ c.pc = .notStarted) (move : MainMove s s') :
    ConnectionHolds i P s' past := by
  cases move with
  | stays connections => exact ⟨by rw [connections]; exact inv.holds, by rw [connections]; exact inv.unborn⟩
  | accept connections =>
    refine ⟨fun d at_ => ?_, fun outside => ?_⟩
    · rw [connections, List.getElem?_append] at at_
      split at at_
      · exact inv.holds d at_
      · rename_i beyond
        rw [inv.unborn (List.getElem?_eq_none (Nat.not_lt.mp beyond))]
        rw [List.getElem?_singleton] at at_
        split at at_
        · cases at_
          exact rule.new
        · cases at_
    · rw [connections, List.getElem?_eq_none_iff, List.length_append] at outside
      exact inv.unborn (List.getElem?_eq_none (by omega))
  | @spawn k c spawning found connections =>
    refine inv.set found connections (fun same => ?_) fun _ => rfl
    subst same
    obtain ⟨d, at_, waiting⟩ := held (spawning ▸ rfl)
    cases found.symm.trans at_
    exact rule.spawned c _ (inv.holds c found) waiting
  | @close k c visited closing found connections =>
    refine inv.set found connections (fun same => ?_) fun _ => rfl
    subst same
    exact rule.counted c _ (inv.holds c found)

/-- The rule for what holds of a connection in every run. -/
theorem ConnectionRule.invariant {maxConcurrentClients : Int} (rule : ConnectionRule i P)
    (reach : (tracedChat maxConcurrentClients).Reach (s, past)) : ConnectionHolds i P s past := by
  refine reach.invariant (I := fun state => ConnectionHolds i P state.1 state.2) ?_ ?_
  · intro state initial
    cases initial
    exact ⟨nofun, fun _ => rfl⟩
  · intro ⟨s, past⟩ action ⟨s', past'⟩ reach inv step
    obtain ⟨moved, rfl⟩ := tracedChat_step step
    have notices := notice_inv reach
    by_cases handler : ∃ k r, action = .handler k r
    · obtain ⟨k, r, rfl⟩ := handler
      obtain ⟨c, found, _, move⟩ := handlerStep_trace moved
      exact inv.handler rule found (notices.trails k c found).closing move
    · have background : ∀ k r, action ≠ .handler k r := fun k r same => handler ⟨k, r, same⟩
      have silent : s.event action = none := by
        cases action with
        | handler k r => exact absurd rfl (background k r)
        | _ => rfl
      obtain ⟨_, _, move⟩ := chatStep_background moved background
      rw [silent, Option.toList_none, List.append_nil]
      exact inv.main rule (notices.held i) move

end PCProject
