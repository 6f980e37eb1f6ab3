import PCProject.ChatLines

namespace PCProject

/-- On the way out of the loop. -/
def HandlerPc.leaves (online : Bool) : HandlerPc → Bool
  | .timedOut | .unregister | .broadcastLeave | .close .leaving | .delete | .returned => true
  | .loop => !online
  | _ => false

/-- Only the last result can end the loop, and when it does the handler is on its way out. -/
def EndInv (i : Nat) (s : InterleavedChat) (past : List RoomEvent) : Prop :=
  ∀ c, s.chat.connections[i]? = some c → (∀ r ∈ results i past, r.ends = false) ∨
    c.pc.leaves c.client.isOnline = true ∧
      ∃ rs r, results i past = rs ++ [r] ∧ (∀ r ∈ rs, r.ends = false) ∧ r.ends = true

variable {s s' : InterleavedChat} {i j : Nat} {r : Received} {c c' : Connection} {stage : CallStage} {users : Users}
  {sends : List (Nat × Bytes)} {past : List RoomEvent}

theorem HandlerPc.leaves_register {online : Bool} {pc : HandlerPc} (place : pc = .register) :
    pc.leaves online = false := by
  rw [place]
  rfl

theorem InterleavedMove.leaves (move : InterleavedMove s i r c c' stage users sends) (staged : c.Staged (s.stage i))
    (gone : c.pc.leaves c.client.isOnline = true) : c'.pc.leaves c'.client.isOnline = true := by
  cases move with
  | refuse _ _ place | count _ _ place => cases gone.symm.trans (HandlerPc.leaves_register place)
  | insert at_ | online at_ =>
    rw [at_] at staged
    cases gone.symm.trans (HandlerPc.leaves_register staged.1)
  | offline _ _ place =>
    dsimp only
    rw [place]
    rfl
  | erase at_ next =>
    rw [at_] at staged
    obtain ⟨place, offline, _⟩ := staged
    rw [place] at next
    cases next
    simp [HandlerPc.leaves, offline]
  | done at_ _ next =>
    rw [at_] at staged
    have known := staged.1
    cases place : c.pc with
    | broadcastLeave =>
      rw [place] at next
      cases next
      rfl
    | timedOut | unregister | delete | returned | loop =>
      rw [place] at known
      cases known
    | close =>
      rw [place] at known
      cases known
    | _ =>
      rw [place] at gone
      cases gone
  | call _ _ known simple done next =>
    obtain ⟨_, does⟩ : ∃ users, HandlerCall s.chat i r c.client c.pc _ _ _ users _ := ⟨_, handlerCall known done next⟩
    generalize c.pc = place at gone does
    cases does with
    | loop =>
      simp only [HandlerPc.leaves, Bool.not_eq_true'] at gone
      simp [gone, HandlerPc.leaves]
    | timedOut | delete => rfl
    | unregister | broadcastLeave => cases simple
    | _ => cases gone
  | notify at_ closing next =>
    rw [at_] at staged
    obtain ⟨site, place⟩ := staged.closing closing
    rw [place] at next gone
    cases site with
    | leaving =>
      cases next
      rfl
    | _ => cases gone
  | _ => exact gone

theorem Received.leaves_of_ends {pc : HandlerPc} {online : Bool}
    (next : HandlerPc.getMessage.resume (.received r) = some pc)
    (ends : r.ends = true) : pc.leaves online = true := by
  rcases HandlerPc.resume_getMessage next with ⟨_, rfl | rfl⟩ | ⟨stays, _⟩
  · rfl
  · rfl
  · cases ends.symm.trans stays

theorem EndInv.own_step (inv : EndInv i s past) (room : RoomInv s) (found : s.chat.connections[i]? = some c)
    (move : InterleavedMove s i r c c' stage users sends) (effect : StepEffect s i c' stage users sends s') :
    EndInv i s' (past ++ roomEvents s s' (.handler i r)) := by
  intro d at_
  have staged := room.staged i c found
  cases (effect.here found).symm.trans at_
  rw [results_append, results_handler found effect]
  by_cases asks : c.pc = .getMessage
  · rw [if_pos ⟨rfl, asks⟩]
    rcases inv c found with all | ⟨gone, _⟩
    · cases ends : r.ends with
      | false =>
        refine Or.inl fun q member => ?_
        rcases List.mem_append.mp member with old | new
        · exact all q old
        · rwa [List.mem_singleton.mp new]
      | true =>
        obtain ⟨_, _, next⟩ := move.asked staged asks
        exact Or.inr ⟨Received.leaves_of_ends next ends, _, _, rfl, all, ends⟩
    · rw [asks] at gone
      cases gone
  · rw [if_neg fun both => asks both.2, List.append_nil]
    exact (inv c found).imp_right fun ⟨gone, last⟩ => ⟨move.leaves staged gone, last⟩

theorem EndInv.step {maxConcurrentClients : Int} {action : ChatAction} (inv : EndInv i s past)
    (sender : SenderInv i s past)
    (room : RoomInv s) (step : interleavedStep maxConcurrentClients s action = some s') :
    EndInv i s' (past ++ roomEvents s s' action) := by
  rcases interleavedStep_split i room step with ⟨r, c, c', stage, users, sends, rfl, found, move, effect⟩ |
    ⟨other, left⟩
  · exact inv.own_step room found move effect
  · have silent : results i (roomEvents s s' action) = [] := (roomEvents_other (j := 0) other).1
    intro d at_
    rw [results_append, silent, List.append_nil]
    rcases left.place d at_ with ⟨c, found, client, same | ⟨waiting, _⟩⟩ | ⟨outside, _⟩
    · rw [client, same]
      exact inv c found
    · rw [(sender.new c found (by rw [waiting]; rfl)).1]
      exact Or.inl nofun
    · rw [(sender.unborn outside).1]
      exact Or.inl nofun

theorem end_inv {maxConcurrentClients : Int} (reach : (deliveringChat maxConcurrentClients).Reach (s, past)) :
    EndInv i s past := by
  refine reach.invariant (I := fun t => EndInv i t.1 t.2) ?_ ?_
  · intro t initial
    cases initial
    nofun
  · intro ⟨s, past⟩ action ⟨s', past'⟩ reach inv step
    obtain ⟨moved, rfl⟩ := deliveringChat_step step
    obtain ⟨room, sender⟩ := sender_inv reach
    exact inv.step sender room moved

theorem Received.line_of_ends (ends : r.ends = true) : r.line = none := by
  unfold Received.line
  simp only [Received.ends, Bool.or_eq_true, decide_eq_true_eq] at ends
  rw [if_pos]
  tauto

theorem Received.not_isList_of_ends (ends : r.ends = true) : r.isList = false := by
  simp only [Received.ends, Bool.or_eq_true] at ends
  rcases ends with (late | empty) | bye
  · simp [Received.isList, late]
  · simp [Received.isList, of_decide_eq_true empty, ascii]
  · simp [Received.isList, of_decide_eq_true bye, ascii]

theorem Received.line_of_open (open_ : r.ends = false) : r.line = if r.isList then none else some r.message := by
  simp only [Received.ends, Bool.or_eq_false_iff, decide_eq_false_iff_not] at open_
  obtain ⟨⟨inTime, text⟩, stays⟩ := open_
  simp [Received.line, Received.isList, inTime, text, stays]

theorem linesFrom_of_open {name : Bytes} {rs : List Received} (open_ : ∀ r ∈ rs, r.ends = false) :
    linesFrom name rs = (rs.filter fun r => !r.isList).map fun r => namePrefix name ++ r.message := by
  induction rs with
  | nil => rfl
  | cons r rest ih =>
    have first := Received.line_of_open (open_ r List.mem_cons_self)
    have later := ih fun q member => open_ q (List.mem_cons_of_mem _ member)
    unfold linesFrom at later ⊢
    cases listed : r.isList <;> simp_all

/-- A message of a handler to its own client is not a line. -/
theorem SenderInv.no_own_lines (sender : SenderInv i s past) (name : Bytes) : linesOf name (sentTo i i past) = [] := by
  refine List.filter_eq_nil_iff.mpr fun message member begins => ?_
  obtain ⟨rest, rfl⟩ := List.isPrefixOf_iff_prefix.mp begins
  have server := sender.own _ member
  simp [namePrefix, ascii] at server

theorem pendingLine_cases (c : Connection) (j : Nat) (key : Bytes) (stage : CallStage) :
    pendingLine c j key stage = [] ∨
    ∃ text, c.pc = .broadcastMessage text ∧ pendingLine c j key stage = [namePrefix c.client.name ++ text] := by
  unfold pendingLine
  split
  · cases passing : c.pc.lineText with
    | none => exact Or.inl rfl
    | some text => exact Or.inr ⟨text, HandlerPc.place_of_lineText passing, rfl⟩
  · exact Or.inl rfl

/-- Of the results of the loop all but the last leave it running. If another client is registered
whenever a line is passed on, the lines sent to it are the results that are not `\list`, in their
order, but for the one that is being passed on. The handler's own client gets no line, and
everybody else no list of users: these answer the `\list` of the own client, one each. -/
theorem lines_in_order {maxConcurrentClients : Int} (apart : j ≠ i)
    (via : (deliveringChat maxConcurrentClients).ReachVia (staysRegistered i j) (s, past))
    (found : s.chat.connections[i]? = some c) :
    ∃ rs rest pending, results i past = rs ++ rest ∧ (∀ r ∈ rs, r.ends = false) ∧
      (rest = [] ∨ ∃ r, rest = [r] ∧ r.ends = true) ∧
      linesOf c.client.name (sentTo i j past) ++ pending =
        (rs.filter fun r => !r.isList).map (fun r => namePrefix c.client.name ++ r.message) ∧
      (pending = [] ∨ ∃ text, c.pc = .broadcastMessage text ∧ pending = [namePrefix c.client.name ++ text]) ∧
      linesOf c.client.name (sentTo i i past) = [] ∧
      (∀ t, t ≠ i → ∀ message ∈ sentTo i t past, userlistHeader.isPrefixOf message = false) ∧
      (sentTo i i past).countP userlistHeader.isPrefixOf + (if c.pc = .list then 1 else 0) =
        rs.countP Received.isList := by
  obtain ⟨_, sender⟩ := sender_inv (i := i) via.reach
  have lines := (pair_inv apart via).lines c found
  have replies := sender.replies c found
  obtain ⟨rs, rest, split, open_, last⟩ : ∃ rs rest, results i past = rs ++ rest ∧ (∀ r ∈ rs, r.ends = false) ∧
      (rest = [] ∨ ∃ r, rest = [r] ∧ r.ends = true) := by
    rcases end_inv via.reach c found with all | ⟨_, rs, r, split, open_, ends⟩
    · exact ⟨_, [], (List.append_nil _).symm, all, Or.inl rfl⟩
    · exact ⟨rs, [r], split, open_, Or.inr ⟨r, rfl, ends⟩⟩
  have noLine : linesFrom c.client.name rest = [] := by
    rcases last with rfl | ⟨r, rfl, ends⟩
    · rfl
    · simp [linesFrom, Received.line_of_ends ends]
  have noList : rest.countP Received.isList = 0 := by
    rcases last with rfl | ⟨r, rfl, ends⟩
    · rfl
    · simp [Received.not_isList_of_ends ends]
  rw [split, linesFrom_append, noLine, List.append_nil, linesFrom_of_open open_] at lines
  rw [split, List.countP_append, noList, Nat.add_zero] at replies
  exact ⟨rs, rest, _, split, open_, last, lines, pendingLine_cases .., sender.no_own_lines _, sender.others, replies⟩

/-- Ann says something, asks for the list, and is about to say something else, while Bob is there. -/
def annTalks : List ChatAction :=
  twoNames "ann" "bob" ++ List.replicate 3 (.handler 0 .timeout) ++ List.replicate 3 (.handler 1 .timeout) ++
    List.replicate 6 (.handler 0 .timeout) ++ [.handler 0 (.text (ascii "hi"))] ++
    List.replicate 3 (.handler 0 .timeout) ++
    List.replicate 2 (.handler 1 .timeout) ++ List.replicate 3 (.handler 0 .timeout) ++
    [.handler 0 (.text (ascii "\\list"))] ++ List.replicate 2 (.handler 0 .timeout) ++
    [.handler 0 (.text (ascii "yo"))] ++ List.replicate 2 (.handler 0 .timeout)

theorem lines_in_order_two :
    ∃ s past, (deliveringChat 2).execVia (staysRegistered 0 1) (.start, []) annTalks = some (s, past) ∧
      results 0 past = [.text (ascii "hi"), .text (ascii "\\list"), .text (ascii "yo")] ∧
      linesOf (ascii "ann") (sentTo 0 1 past) = [ascii "[ann] hi"] ∧
      ∃ rs rest pending, results 0 past = rs ++ rest ∧ (∀ r ∈ rs, r.ends = false) ∧
        linesOf (ascii "ann") (sentTo 0 1 past) ++ pending =
          (rs.filter fun r => !r.isList).map fun r => namePrefix (ascii "ann") ++ r.message := by
  have run : (deliveringChat 2).execVia (staysRegistered 0 1) (.start, []) annTalks = some (_, _) := rfl
  have via := System.ReachVia.exec (.start rfl) run
  obtain ⟨rs, rest, pending, split, open_, _, lines, _⟩ := lines_in_order (by decide) via rfl
  exact ⟨_, _, rfl, rfl, rfl, rs, rest, pending, split, open_, lines⟩

end PCProject
