import PCProject.ChatRoom

namespace PCProject

/-- `users[name]`, without the insertion of a missing name. -/
def lookupUser (name : Bytes) (users : Users) : Option Nat := (users.find? fun user => user.1 = name).map Prod.snd

/-- Inside `register_client` or `unregister_client`. -/
def CallStage.changing : CallStage → Bool
  | .inserting | .settingOnline | .erasing => true
  | _ => false

/-- Nobody else has inserted the name between the count of `register_client` and its insertion. -/
def freshInsertion (s : InterleavedChat) : ChatAction → Bool
  | .handler i _ =>
    match s.stage i with
    | .inserting => !(s.chat.connections[i]?.any fun c => s.chat.users.any fun user => user.1 = c.client.name)
    | _ => true
  | _ => true

variable {s s' : InterleavedChat} {i : Nat} {r : Received} {c c' : Connection} {stage : CallStage} {users : Users}
  {sends : List (Nat × Bytes)}

theorem lookupUser_of_mem {name : Bytes} (sorted : SortedUsers users) (member : (name, i) ∈ users) :
    lookupUser name users = some i := by
  unfold lookupUser
  cases found : users.find? fun user => user.1 = name with
  | none => exact absurd (List.find?_eq_none.mp found (name, i) member) (by simp)
  | some user =>
    have here : user.1 = name := by simpa using List.find?_some found
    have inside : (name, user.2) ∈ users := here ▸ List.mem_of_find?_eq_some found
    rw [Option.map_some, sorted.unique inside member]

/-- Every client between its insertion and its removal has an entry under its name. -/
def Registered (s : InterleavedChat) : Prop :=
  ∀ i c, s.chat.connections[i]? = some c → c.Inside (s.stage i) → (c.client.name, i) ∈ s.chat.users

/-- The removal of one client only removes its own entry. -/
theorem Registered.erases_own (registered : Registered s) (inv : RoomInv s) (found : s.chat.connections[i]? = some c)
    (erasing : s.stage i = .erasing) : ∀ user ∈ s.chat.users, user.1 = c.client.name → user.2 = i := by
  intro user member same
  have mine := registered i c found (by rw [erasing]; trivial)
  exact inv.sorted.unique (same ▸ member) mine

/-- A step of a handler leaves the entries of the others. -/
theorem Registered.others (registered : Registered s) (inv : RoomInv s) (found : s.chat.connections[i]? = some c)
    (fresh : freshInsertion s (.handler i r) = true) (move : InterleavedMove s i r c c' stage users sends) :
    ∀ user ∈ s.chat.users, user.2 ≠ i → user ∈ users := by
  intro user member other
  cases move with
  | insert inserting =>
    refine (mem_assignUser inv.sorted).mpr (Or.inr ⟨member, fun same => ?_⟩)
    simp only [freshInsertion, inserting, found, Option.any_some, Bool.not_eq_true', List.any_eq_false] at fresh
    exact fresh user member (decide_eq_true same)
  | erase erasing =>
    exact mem_eraseUser.mpr ⟨member, fun same => other (registered.erases_own inv found erasing user member same)⟩
  | _ => exact member

/-- A client that is inside after its own step has its entry then. -/
theorem Registered.own (registered : Registered s) (inv : RoomInv s) (found : s.chat.connections[i]? = some c)
    (move : InterleavedMove s i r c c' stage users sends) (inside : c'.Inside stage) : (c'.client.name, i) ∈ users := by
  have staged := inv.staged i c found
  have before := registered i c found
  cases move with
  | insert => exact (mem_assignUser inv.sorted).mpr (Or.inl rfl)
  | online at_ => exact before (by rw [at_]; trivial)
  | offline at_ _ place =>
    rw [at_] at staged before
    exact before (staged.member true (by rw [place]; rfl))
  | erase at_ =>
    rw [at_] at staged
    exact absurd (inside.symm.trans staged.2.1) nofun
  | call at_ _ _ _ _ _ same named =>
    rw [at_] at staged before
    rcases named with naming | same_name
    · have offline := staged.member false (by rw [naming]; rfl)
      exact absurd ((same.symm.trans inside).symm.trans offline) nofun
    · rw [same_name]
      exact before (same.symm.trans inside)
  | refuse at_ | count at_ | broadcast at_ | done at_ | skip at_ | read at_ | send at_ | close at_ | notify at_ =>
    rw [at_] at before
    exact before inside

theorem Registered.step {maxConcurrentClients : Int} {action : ChatAction} (registered : Registered s) (inv : RoomInv s)
    (fresh : freshInsertion s action = true) (step : interleavedStep maxConcurrentClients s action = some s') :
    Registered s' := by
  intro j d at_ inside
  rcases interleavedStep_cases step with ⟨i, r, rfl, step⟩ | ⟨background, chat, rfl, stepped⟩
  · obtain ⟨c, c', stage, users, sends, found, move, effect⟩ := interleavedHandler_move step
    rw [effect.users]
    by_cases same : i = j
    · subst same
      cases (effect.here found).symm.trans at_
      rw [effect.moved] at inside
      exact registered.own inv found move inside
    · rw [effect.there same] at at_
      rw [effect.still same] at inside
      exact registered.others inv found fresh move _ (registered j d at_ inside) (Ne.symm same)
  · obtain ⟨users, _, move⟩ := chatStep_background stepped background
    rcases move.client at_ with ⟨c, found, client, _⟩ | ⟨unborn, rfl⟩
    · have before : c.Inside (s.stage j) := by
        unfold Connection.Inside at inside ⊢
        rw [← client]
        exact inside
      rw [client]
      dsimp only
      rw [users]
      exact registered j c found before
    · rw [inv.unborn j unborn] at inside
      cases inside

theorem registered {maxConcurrentClients : Int}
    (via : (interleavedChat maxConcurrentClients).ReachVia freshInsertion s) : Registered s := by
  suffices RoomInv s ∧ Registered s from this.2
  refine via.invariant (I := fun s => RoomInv s ∧ Registered s) ?_ ?_
  · intro s initial
    cases initial
    exact ⟨.start, nofun⟩
  · exact fun s action t inv fresh step => ⟨inv.1.step step, inv.2.step inv.1 fresh step⟩

/-- In the runs in which no name appears in the map between the check and the insertion of another
handler, the map and the clients that are online agree whenever nobody is about to change them,
and a removal takes out no entry but the client's own. -/
theorem names_stay_unique {maxConcurrentClients : Int}
    (via : (interleavedChat maxConcurrentClients).ReachVia freshInsertion s) :
    ((∀ i, (s.stage i).changing = false) →
      (∀ i, (∃ c, s.chat.connections[i]? = some c ∧ c.client.isOnline = true) ↔ ∃ name, (name, i) ∈ s.chat.users) ∧
      (∀ i c, s.chat.connections[i]? = some c → c.client.isOnline = true →
        lookupUser c.client.name s.chat.users = some i) ∧
      ∀ (i j : Nat) (c d : Connection), s.chat.connections[i]? = some c → c.client.isOnline = true →
        s.chat.connections[j]? = some d → d.client.isOnline = true → c.client.name = d.client.name → i = j) ∧
    ∀ i r s', s.stage i = .erasing → interleavedHandler s i r = some s' →
      ∀ user ∈ s.chat.users, user ∉ s'.chat.users → user.2 = i := by
  have inv := room_inv via.reach
  have entered := registered via
  refine ⟨fun quiet => ?_, ?_⟩
  · have entry : ∀ i c, s.chat.connections[i]? = some c → c.client.isOnline = true →
        (c.client.name, i) ∈ s.chat.users := by
      intro i c found online
      refine entered i c found ?_
      unfold Connection.Inside
      split
      · trivial
      · trivial
      · exact online
    refine ⟨fun i => ⟨?_, ?_⟩, fun i c found online => lookupUser_of_mem inv.sorted (entry i c found online), ?_⟩
    · intro ⟨c, found, online⟩
      exact ⟨c.client.name, entry i c found online⟩
    · intro ⟨name, member⟩
      obtain ⟨c, found, _, inside⟩ := inv.members _ member
      refine ⟨c, found, ?_⟩
      have calm := quiet i
      unfold Connection.Inside at inside
      dsimp only at inside
      split at inside
      · rename_i stage
        rw [stage] at calm
        cases calm
      · rename_i stage
        rw [stage] at calm
        cases calm
      · exact inside
    · intro i j c d atI onlineI atJ onlineJ same
      exact inv.sorted.unique (entry i c atI onlineI) (same ▸ entry j d atJ onlineJ)
  · intro i r s' erasing step user member gone
    obtain ⟨c, c', stage, users, sends, found, move, effect⟩ := interleavedHandler_move step
    rw [effect.users] at gone
    cases move with
    | erase =>
      refine entered.erases_own inv found erasing user member ?_
      by_contra other
      exact gone (mem_eraseUser.mpr ⟨member, other⟩)
    | insert at_ => cases erasing.symm.trans at_
    | _ => exact absurd member gone

/-- Two handlers are started, and each asks for the name of its client. -/
def twoNames (first second : String) : List ChatAction :=
  List.replicate 12 (.main true) ++ List.replicate 2 (.handler 0 (.text (ascii first))) ++
    List.replicate 2 (.handler 1 (.text (ascii second)))

/-- The registrations of two clients overlap, and one of the clients leaves. -/
def overlappingRegistrations : List ChatAction :=
  twoNames "ann" "bob" ++ [.handler 0 .timeout, .handler 1 .timeout, .handler 0 .timeout, .handler 1 .timeout,
    .handler 1 .timeout, .handler 0 .timeout] ++ List.replicate 10 (.handler 1 .timeout)

/-- A handler that does not exist is not inside a call. -/
theorem RoomInv.quiet (inv : RoomInv s) (calm : ∀ i < s.chat.connections.length, (s.stage i).changing = false)
    (i : Nat) :
    (s.stage i).changing = false := by
  by_cases inside : i < s.chat.connections.length
  · exact calm i inside
  · rw [inv.unborn i (List.getElem?_eq_none (Nat.not_lt.mp inside))]
    rfl

theorem names_stay_unique_two :
    ∃ s, (interleavedChat 2).execVia freshInsertion .start overlappingRegistrations = some s ∧
      s.chat.users = [(ascii "ann", 0)] ∧ ∀ i c, s.chat.connections[i]? = some c → c.client.isOnline = true →
        lookupUser c.client.name s.chat.users = some i := by
  have run : (interleavedChat 2).execVia freshInsertion .start overlappingRegistrations = some _ := rfl
  have via := System.ReachVia.exec (.start rfl) run
  exact ⟨_, rfl, rfl, ((names_stay_unique via).1 ((room_inv via.reach).quiet (by decide))).2.1⟩

/-- Two clients both find the name "ann" free, and both are online under it. The map has one of
them, and loses it when the other one leaves. -/
theorem name_registered_twice :
    ∃ s s', (interleavedChat 2).Reach s ∧ (∀ i, (s.stage i).changing = false) ∧
      s.chat.connections.map (fun c => (c.client.name, c.client.isOnline)) =
        [(ascii "ann", true), (ascii "ann", true)] ∧
      s.chat.users = [(ascii "ann", 1)] ∧
      (interleavedChat 2).exec s (List.replicate 9 (.handler 0 .timeout)) = some s' ∧
      s'.chat.connections.map (fun c => c.client.isOnline) = [false, true] ∧ s'.chat.users = [] := by
  have run : (interleavedChat 2).exec .start (twoNames "ann" "ann" ++ [.handler 0 .timeout, .handler 1 .timeout,
    .handler 0 .timeout, .handler 0 .timeout, .handler 1 .timeout, .handler 1 .timeout]) = some _ := rfl
  have reach := System.Reach.exec (.start rfl) run
  exact ⟨_, _, reach, (room_inv reach).quiet (by decide), rfl, rfl, rfl, rfl, rfl⟩

end PCProject
