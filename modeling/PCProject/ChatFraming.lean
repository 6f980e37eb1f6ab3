import PCProject.ChatHearing

namespace PCProject

/-- What `get_message` returns for the bytes of one `recv`: the string at the start of the buffer,
which had been cleared. It is `none` where reading the string leaves the buffer. -/
def Client.getMessage (chunk : Bytes) : Option Bytes := cString (overwrite (List.replicate 1024 0) chunk)

/-- The messages of a client, one `send` each, and the results of `recv` that their bytes arrive in. -/
structure Segmentation (messages chunks : List Bytes) : Prop where
  texts : ∀ message ∈ messages, message ≠ [] ∧ 0 ∉ message ∧ message.length ≤ 1023
  sizes : ∀ chunk ∈ chunks, 1 ≤ chunk.length ∧ chunk.length ≤ 1024
  stream : chunks.flatten = messages.flatten

/-- Every call of `get_message` has returned the string of the next chunk. -/
def Delivered (chunks : List Bytes) (i : Nat) (past : List ChatEvent) : Prop :=
  (chunks.take (heard i past).length).map (fun chunk => (Client.getMessage chunk).map Received.text) =
    (heard i past).map some

/-- The handler has returned, or it waits for more than has been sent or could be read. -/
def Connection.AtRest (chunks : List Bytes) (hears : Nat) (c : Connection) : Prop :=
  c.pc = .returned ∨ (c.pc = .getName ∨ c.pc = .getMessage) ∧ ∀ chunk, chunks[hears]? = some chunk →
    Client.getMessage chunk = none

variable {s s' : ChatState} {i : Nat} {r : Received} {c : Connection} {name : Bytes} {past : List ChatEvent}
  {messages chunks : List Bytes}

theorem Segmentation.clean (segmented : Segmentation messages chunks) : ∀ chunk ∈ chunks, 0 ∉ chunk := by
  intro chunk member zero
  have inside : 0 ∈ messages.flatten := segmented.stream ▸ List.mem_flatten.mpr ⟨chunk, member, zero⟩
  obtain ⟨message, sent, zero⟩ := List.mem_flatten.mp inside
  exact (segmented.texts message sent).2.1 zero

/-- Chunks that begin with the messages are the messages. -/
theorem Segmentation.whole {n : Nat} (segmented : Segmentation messages chunks) (begins : chunks.take n = messages) :
    chunks = messages := by
  have stream := segmented.stream
  rw [← List.take_append_drop n chunks, List.flatten_append, begins, List.append_right_eq_self] at stream
  have nothing : chunks.drop n = [] := by
    refine List.eq_nil_iff_forall_not_mem.mpr fun chunk member => ?_
    have empty := List.flatten_eq_nil_iff.mp stream chunk member
    have size := (segmented.sizes chunk (List.mem_of_mem_drop member)).1
    simp [empty] at size
  rw [← begins, List.take_of_length_le (List.drop_eq_nil_iff.mp nothing)]

theorem Client.getMessage_clean {chunk : Bytes} (clean : 0 ∉ chunk) :
    Client.getMessage chunk = if chunk.length < 1024 then some chunk else none := cString_overwrite clean

theorem heard_of_map {f : Bytes → Option Received} {rs : List Received} {texts : List Bytes}
    (reads : ∀ text ∈ texts, ∀ r, f text = some r → r = .text text) (all : texts.map f = rs.map some) :
    rs = texts.map Received.text := by
  induction texts generalizing rs with
  | nil =>
    cases rs with
    | nil => rfl
    | cons => cases all
  | cons text rest ih =>
    cases rs with
    | nil => cases all
    | cons r later =>
      simp only [List.map_cons, List.cons.injEq] at all ⊢
      exact ⟨reads text List.mem_cons_self r all.1, ih (fun q member => reads q (List.mem_cons_of_mem _ member)) all.2⟩

/-- What has been heard are the first chunks themselves. -/
theorem Delivered.texts (delivered : Delivered chunks i past) (segmented : Segmentation messages chunks) :
    heard i past = (chunks.take (heard i past).length).map Received.text := by
  refine heard_of_map (fun text member r reads => ?_) delivered
  have clean := segmented.clean text (List.mem_of_mem_take member)
  rw [Client.getMessage_clean clean] at reads
  split at reads
  · cases reads
    rfl
  · cases reads

theorem Received.bye_of_ends {message : Bytes} (ends : (Received.text message).ends = true) (nonempty : message ≠ []) :
    message = ascii "\\bye" := by
  simp only [Received.ends, Bool.or_eq_true] at ends
  rcases ends with (late | empty) | bye
  · cases late
  · exact absurd (of_decide_eq_true empty) nonempty
  · exact of_decide_eq_true bye

/-- A handler that returns has heard everything. -/
theorem Hearing.returned {accepted online : Bool} {n : Nat} (nonempty : ∀ message ∈ messages, message ≠ [])
    (hearing : Hearing .returned online accepted ((messages.take n).map Received.text))
    (member : messages.length ≤ 1 ∨ accepted = true)
    (byes : ∀ message ∈ messages.tail.dropLast, message ≠ ascii "\\bye") :
    messages.length ≤ n := by
  rcases hearing with ⟨r, one, ends⟩ | ⟨⟨name, one⟩, refused⟩ | ⟨_, name, later, last, split, _, ends⟩
  · obtain ⟨message, begins, rfl⟩ := List.map_eq_singleton_iff.mp one
    have sent : message ∈ messages := List.mem_of_mem_take (begins ▸ List.mem_singleton_self message)
    rcases ends with late | empty
    · cases late
    · exact absurd empty (nonempty message sent)
  · have short := member.resolve_right (by simp [refused])
    have heardOne := congrArg List.length one
    simp only [List.length_map, List.length_take, List.length_singleton] at heardOne
    omega
  · obtain ⟨first, others, begins, rfl, afterwards⟩ := List.map_eq_cons_iff.mp split
    obtain ⟨before, ending, rfl, rfl, ended⟩ := List.map_eq_append_iff.mp afterwards
    obtain ⟨message, rfl, rfl⟩ := List.map_eq_singleton_iff.mp ended
    have heardIt : message ∈ messages.take n := by simp [begins]
    have sent := List.mem_of_mem_take heardIt
    have bye := Received.bye_of_ends ends (nonempty message sent)
    by_contra more
    have left : messages.drop n ≠ [] := by simpa using more
    refine byes message ?_ bye
    rw [← List.take_append_drop n messages, begins, List.cons_append, List.tail_cons,
      List.dropLast_append_of_ne_nil left]
    simp

/-- The calls left before the next `get_message` or the end. -/
def HandlerPc.distance (online closing : Bool) : HandlerPc → Nat
  | .notStarted | .getName | .getMessage | .returned => 0
  | .welcome | .delete => 1
  | .loop => if online then 1 else 5
  | .close .refused => if closing then 7 else 8
  | .close _ => if closing then 2 else 3
  | .broadcastLeave => 4
  | .unregister | .broadcastJoin | .list | .broadcastMessage _ => 6
  | .nameTimedOut | .timedOut => 7
  | .register => 9

def Connection.distance (c : Connection) : Nat := c.pc.distance c.client.isOnline c.closing

def HandlerPc.hears : HandlerPc → Bool
  | .getName | .getMessage => true
  | _ => false

theorem HandlerPc.distance_lt (pc : HandlerPc) (online closing : Bool) : pc.distance online closing < 10 := by
  unfold HandlerPc.distance
  split
  all_goals first | decide | (split <;> decide)

/-- A call other than `get_message` brings the handler closer to the next one or to its end. -/
theorem HandlerPc.distance_call (name : Bytes) {call : ChatCall} {reply : Reply} {client : Client} {users : Users}
    {sent : List (Nat × Bytes)} {pc : HandlerPc} (known : c.pc.call c.client.name = some call)
    (done : s.perform i c.client r call = some (reply, client, users, sent)) (next : c.pc.resume reply = some pc)
    (deaf : c.pc.hears = false) : ChatEvent.heard ⟨i, name, call, reply⟩ = none ∧
      pc.distance client.isOnline false < c.pc.distance c.client.isOnline false := by
  have does := handlerCall known done next
  generalize c.pc = place at deaf does ⊢
  cases does with
  | getName | getMessage => cases deaf
  | loop | broadcastJoin | list | broadcastMessage =>
    refine ⟨rfl, ?_⟩
    cases c.client.isOnline <;> simp [HandlerPc.distance]
  | _ => exact ⟨rfl, by simp [HandlerPc.distance]⟩

theorem handlerStep_some (found : s.connections[i]? = some c) (alive : s.main ≠ .exited)
    (closing : c.closing = true → ∃ site, c.pc = .close site) (started : c.pc ≠ .notStarted)
    (unfinished : c.pc ≠ .returned)
    (r : Received) : ∃ s', handlerStep s i r = some s' := by
  simp only [handlerStep, found, alive, bind, Option.bind, if_false]
  cases busy : c.closing with
  | true =>
    obtain ⟨site, place⟩ := closing busy
    rw [place]
    cases site <;> exact ⟨_, rfl⟩
  | false =>
    simp only [Bool.false_eq_true, if_false]
    cases place : c.pc with
    | notStarted => exact absurd place started
    | returned => exact absurd place unfinished
    | register =>
      cases taken : s.users.any fun user => user.1 = c.client.name <;>
        simp [HandlerPc.call, ChatState.perform, taken, HandlerPc.resume]
    | _ => exact ⟨_, rfl⟩

/-- A step of a handler that is not about to hear something brings it closer, and one that is hears it. -/
theorem HandlerTrace.closer {events : List ChatEvent} (move : HandlerTrace s i r c s' events)
    (found : s.connections[i]? = some c) (alive : s.main ≠ .exited)
    (closing : c.closing = true → ∃ site, c.pc = .close site) :
    s'.main ≠ .exited ∧ ∃ c', s'.connections[i]? = some c' ∧ c'.pc ≠ .notStarted ∧
      (c.pc.hears = true ∧ heard i events = [r] ∨
        c.pc.hears = false ∧ heard i events = [] ∧ c'.distance < c.distance) := by
  have inside := (List.getElem?_eq_some_iff.mp found).1
  cases move with
  | notify closes next =>
    obtain ⟨site, place⟩ := closing closes
    refine ⟨fun gone => alive (MainPc.notifyAll_eq gone nofun), _, List.getElem?_set_self inside,
      HandlerPc.resume_ne_notStarted next, Or.inr ⟨by rw [place]; rfl, rfl, ?_⟩⟩
    rw [place] at next
    unfold Connection.distance
    rw [place, closes]
    cases site <;> (cases next; simp [HandlerPc.distance])
  | close idle place =>
    refine ⟨alive, _, List.getElem?_set_self inside, by rw [place]; nofun, Or.inr ⟨by rw [place]; rfl, ?_, ?_⟩⟩
    · simp [heard_singleton, ChatEvent.heard]
    · rename_i site
      unfold Connection.distance
      rw [place, idle]
      cases site <;> simp [HandlerPc.distance]
  | call idle known done next =>
    refine ⟨alive, _, List.getElem?_set_self inside, HandlerPc.resume_ne_notStarted next, ?_⟩
    cases hears : c.pc.hears with
    | true =>
      refine Or.inl ⟨rfl, ?_⟩
      cases place : c.pc with
      | getName | getMessage =>
        rw [place] at known
        cases known; cases done
        simp [heard_singleton, ChatEvent.heard]
      | _ =>
        rw [place] at hears
        cases hears
    | false =>
      obtain ⟨deaf, closer⟩ := HandlerPc.distance_call c.client.name known done next hears
      refine Or.inr ⟨rfl, by simp [heard_singleton, deaf], ?_⟩
      unfold Connection.distance
      rw [idle]
      exact closer

/-- What is left to do for a handler that has heard so much. -/
def Connection.work (chunks : List Bytes) (hears : Nat) (c : Connection) : Nat :=
  10 * (chunks.length - hears) + c.distance

theorem HandlerPc.hears_cases {pc : HandlerPc} (hears : pc.hears = true) : pc = .getName ∨ pc = .getMessage := by
  cases pc with
  | getName => exact Or.inl rfl
  | getMessage => exact Or.inr rfl
  | _ => cases hears

/-- The bytes of the next chunk can be given to a handler that is not at rest. -/
theorem Delivered.next (delivered : Delivered chunks i past) (working : ¬c.AtRest chunks (heard i past).length) :
    ∃ r, ∀ events, (c.pc.hears = true → heard i events = [r]) → (c.pc.hears = false → heard i events = []) →
      Delivered chunks i (past ++ events) ∧ (c.pc.hears = true → (heard i past).length < chunks.length) := by
  cases hears : c.pc.hears with
  | false =>
    refine ⟨.timeout, fun events _ deaf => ⟨?_, nofun⟩⟩
    unfold Delivered
    rwa [heard_append, deaf rfl, List.append_nil]
  | true =>
    obtain ⟨chunk, next, readable⟩ : ∃ chunk, chunks[(heard i past).length]? = some chunk ∧
      Client.getMessage chunk ≠ none := by
      by_contra stuck
      refine working (Or.inr ⟨HandlerPc.hears_cases hears, fun chunk next => ?_⟩)
      by_contra readable
      exact stuck ⟨chunk, next, readable⟩
    obtain ⟨message, reads⟩ := Option.ne_none_iff_exists'.mp readable
    refine ⟨.text message, fun events heardIt _ => ⟨?_, fun _ => (List.getElem?_eq_some_iff.mp next).1⟩⟩
    unfold Delivered at delivered ⊢
    rw [heard_append, heardIt rfl, List.length_append, List.length_singleton, List.take_add_one, next,
      Option.toList_some, List.map_append, List.map_append, delivered]
    simp [reads]

/-- A handler with a share of the chunks comes to rest if the others let it. -/
theorem comes_to_rest {maxConcurrentClients : Int} (reach : (tracedChat maxConcurrentClients).Reach (s, past))
    (found : s.connections[i]? = some c) (started : c.pc ≠ .notStarted) (alive : s.main ≠ .exited)
    (delivered : Delivered chunks i past) :
    ∃ schedule s' past' c', (∀ action ∈ schedule, ∃ r, action = .handler i r) ∧
      (tracedChat maxConcurrentClients).exec (s, past) schedule = some (s', past') ∧ s'.connections[i]? = some c' ∧
      Delivered chunks i past' ∧ c'.AtRest chunks (heard i past').length := by
  induction work : c.work chunks (heard i past).length using Nat.strongRecOn generalizing s past c with
  | _ n ih =>
    by_cases working : c.AtRest chunks (heard i past).length
    · exact ⟨[], s, past, c, by simp, rfl, found, delivered, working⟩
    · have closing := ((notice_inv reach).trails i c found).closing
      obtain ⟨r, delivers⟩ := delivered.next working
      obtain ⟨t, step⟩ := handlerStep_some found alive closing started (fun returned => working (Or.inl returned)) r
      obtain ⟨d, at_, _, move⟩ := handlerStep_trace step
      cases found.symm.trans at_
      have traced : (tracedChat maxConcurrentClients).step (s, past) (.handler i r) =
          some (t, past ++ (s.event (.handler i r)).toList) := by
        simp [tracedChat, chatStep, step]
      obtain ⟨lives, d, here, onward, progress⟩ := move.closer found alive closing
      generalize (s.event (.handler i r)).toList = events at traced progress
      have less : Delivered chunks i (past ++ events) ∧ d.work chunks (heard i (past ++ events)).length < n := by
        rw [← work, Connection.work, Connection.work, heard_append, List.length_append]
        rcases progress with ⟨hears, one⟩ | ⟨deaf, nothing, closer⟩
        · obtain ⟨next, more⟩ := delivers events (fun _ => one) fun deaf => by cases hears.symm.trans deaf
          have near : d.distance < 10 := HandlerPc.distance_lt ..
          have more := more hears
          rw [one, List.length_singleton]
          exact ⟨next, by omega⟩
        · obtain ⟨next, _⟩ := delivers events (fun hears => by cases hears.symm.trans deaf) fun _ => nothing
          rw [nothing, List.length_nil]
          exact ⟨next, by omega⟩
      obtain ⟨next, less⟩ := less
      obtain ⟨schedule, s', past', c', own, run, rest⟩ := ih _ less (reach.next traced) here onward lives next rfl
      refine ⟨.handler i r :: schedule, s', past', c', fun action member => ?_, ?_, rest⟩
      · rcases List.mem_cons.mp member with first | later
        · exact ⟨r, first⟩
        · exact own action later
      · rw [System.exec, traced]
        exact run

/-- The handler takes the first string for the name and each later one for a line or a command. Once it is at rest,
what it has heard are the messages if and only if they arrived one by one, nothing came after `\bye`, and the name
was free in `users` when it was registered, if anything came after it. -/
theorem messages_arrive {maxConcurrentClients : Int} {schedule : List ChatAction}
    (run : (tracedChat maxConcurrentClients).exec (.start, []) schedule = some (s, past))
    (found : s.connections[i]? = some c) (segmented : Segmentation messages chunks)
    (delivered : Delivered chunks i past)
    (rest : c.AtRest chunks (heard i past).length) :
    (ownEvents i past).IsChain ChatEvent.LeadsTo ∧
    (heard i past = messages.map Received.text ↔
      chunks = messages ∧ (∀ message ∈ messages.tail.dropLast, message ≠ ascii "\\bye") ∧
        (messages.length ≤ 1 ∨ NameFree maxConcurrentClients i schedule)) := by
  have reach : (tracedChat maxConcurrentClients).Reach (s, past) := .exec (.start rfl) run
  refine ⟨calls_lead reach, ?_⟩
  rw [← wasAccepted_iff run]
  have hearing := (hearing_inv reach).hears c found
  have texts := delivered.texts segmented
  constructor
  · intro all
    obtain ⟨member, open_⟩ := hearing.inOrder
    rw [all] at texts member open_
    have begins := List.map_injective_iff.mpr (fun _ _ same => Received.text.inj same) texts
    refine ⟨segmented.whole begins.symm, fun message inside bye => ?_, by simpa using member⟩
    subst bye
    have stays := open_ (.text (ascii "\\bye")) (by
      rw [← List.map_tail, ← List.map_dropLast]
      exact List.mem_map_of_mem inside)
    cases stays
  · rintro ⟨rfl, byes, member⟩
    have everything : chunks.length ≤ (heard i past).length := by
      rcases rest with returned | ⟨_, stuck⟩
      · rw [returned, texts] at hearing
        exact hearing.returned (fun message sent => (segmented.texts message sent).1) member byes
      · by_contra more
        have next := List.getElem?_eq_getElem (Nat.not_le.mp more)
        have sent := List.getElem_mem (Nat.not_le.mp more)
        have unread := stuck _ next
        rw [Client.getMessage_clean (segmented.clean _ sent), if_pos] at unread
        · cases unread
        · have size := (segmented.texts _ sent).2.2
          omega
    rw [List.take_of_length_le everything] at texts
    exact texts

/-- Chunks that leave a byte of the buffer are heard as they are. -/
theorem Delivered.of_texts (segmented : Segmentation messages chunks) (short : ∀ chunk ∈ chunks, chunk.length < 1024)
    (all : heard i past = chunks.map Received.text) : Delivered chunks i past := by
  unfold Delivered
  rw [all, List.length_map, List.take_length, List.map_map]
  refine List.map_congr_left fun chunk member => ?_
  rw [Client.getMessage_clean (segmented.clean chunk member), if_pos (short chunk member)]
  rfl

/-- The only client gives its name, says something and leaves, one chunk a message. -/
def annLeaves : List ChatAction :=
  List.replicate 6 (.main true) ++ List.replicate 5 (.handler 0 (.text (ascii "ann"))) ++
    List.replicate 3 (.handler 0 (.text (ascii "hi"))) ++ List.replicate 7 (.handler 0 (.text (ascii "\\bye")))

theorem messages_arrive_bye :
    ∃ s past, (tracedChat 1).exec (.start, []) annLeaves = some (s, past) ∧
      (ownEvents 0 past).IsChain ChatEvent.LeadsTo ∧
      heard 0 past = [ascii "ann", ascii "hi", ascii "\\bye"].map Received.text := by
  have run : (tracedChat 1).exec (.start, []) annLeaves = some (_, _) := rfl
  have free : NameFree 1 0 annLeaves :=
    ⟨List.replicate 6 (.main true) ++ List.replicate 2 (.handler 0 (.text (ascii "ann"))), .text (ascii "ann"), _, _,
      rfl, rfl, _, rfl, rfl, rfl, by decide⟩
  have segmented : Segmentation [ascii "ann", ascii "hi", ascii "\\bye"] [ascii "ann", ascii "hi", ascii "\\bye"] :=
    ⟨by decide, by decide, rfl⟩
  obtain ⟨leads, arrive⟩ := messages_arrive run (i := 0) rfl segmented
    (Delivered.of_texts segmented (by decide) rfl) (Or.inl rfl)
  exact ⟨_, _, rfl, leads, arrive.mpr ⟨rfl, by decide, Or.inr free⟩⟩

/-- The name and the first line arrive together, and the handler takes both for the name. -/
theorem name_and_line_arrive_together :
    ∃ messages chunks s past c, Segmentation messages chunks ∧ (tracedChat 1).Reach (s, past) ∧
      s.connections[0]? = some c ∧ Delivered chunks 0 past ∧ c.AtRest chunks (heard 0 past).length ∧
      messages = [ascii "ann", ascii "hi"] ∧ heard 0 past = [.text (ascii "annhi")] ∧
      heard 0 past ≠ messages.map Received.text := by
  have run : (tracedChat 1).exec (.start, []) (List.replicate 6 (.main true) ++
    List.replicate 5 (.handler 0 (.text (ascii "annhi")))) = some (_, _) := rfl
  have segmented : Segmentation [ascii "ann", ascii "hi"] [ascii "annhi"] := ⟨by decide, by decide, rfl⟩
  exact ⟨_, _, _, _, _, segmented, System.Reach.exec (.start rfl) run, rfl,
    Delivered.of_texts segmented (by decide) rfl,
    Or.inr ⟨Or.inr rfl, nofun⟩, rfl, rfl, nofun⟩

end PCProject
