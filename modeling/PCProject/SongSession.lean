import PCProject.SongPlayer

namespace PCProject

/-- What one system call of `handle_client` can do. -/
inductive SongCallEffect (songPaths : List String) (h : SongHandler) : SongCall → SongHandler → Prop
  | recvFailed : h.pc = .receiving → SongCallEffect songPaths h (.recv none) (h.fail .receiveFailed)
  | recvClosed : h.pc = .receiving → SongCallEffect songPaths h (.recv (some [])) (h.fail .closedBeforeMessage)
  | refused {m songIdx} : h.pc = .receiving → m ≠ [] → m.length ≤ bufferSize →
      atoi (overwrite h.stack m) = some songIdx → ¬(1 ≤ songIdx ∧ songIdx ≤ songCount) →
      SongCallEffect songPaths h (.recv (some m))
        (SongHandler.fail { h with stack := overwrite h.stack m } (.invalidIndex songIdx))
  | chosen {m songIdx path} : h.pc = .receiving → m ≠ [] → m.length ≤ bufferSize →
      atoi (overwrite h.stack m) = some songIdx → 1 ≤ songIdx ∧ songIdx ≤ songCount →
      songPaths[(songIdx - 1).toNat]? = some path →
      SongCallEffect songPaths h (.recv (some m))
        { h with
          pc := .opening songIdx path, stack := overwrite h.stack m, log := h.log ++ [.requested songIdx path] }
  | openFailed {songIdx path} : h.pc = .opening songIdx path →
      SongCallEffect songPaths h (.fopen none) (h.fail (.openFailed songIdx path))
  | opened {songIdx path content} : h.pc = .opening songIdx path →
      SongCallEffect songPaths h (.fopen (some content)) { h with pc := .reading, fd := some ⟨content, 0⟩ }
  | readFailed {fd} : h.pc = .reading → h.fd = some fd → SongCallEffect songPaths h (.fread 0 true) (h.fail .readFailed)
  | readEnd {fd} : h.pc = .reading → h.fd = some fd → fd.content.length ≤ fd.position →
      SongCallEffect songPaths h (.fread 0 false) (h.fail .streamed)
  | read {fd numRead ferror} : h.pc = .reading → h.fd = some fd → numRead ≠ 0 → numRead ≤ streamChunkSize →
      fd.position + numRead ≤ fd.content.length →
      SongCallEffect songPaths h (.fread numRead ferror)
        { h with
          pc := .sending numRead, fd := some { fd with position := fd.position + numRead }
          stack := overwrite h.stack ((fd.content.drop fd.position).take numRead) }
  | sendFailed {numRead} : h.pc = .sending numRead →
      SongCallEffect songPaths h (.send numRead none) (h.fail .sendFailed)
  | sent {numRead numSent} : h.pc = .sending numRead → 1 ≤ numSent → numSent ≤ numRead →
      SongCallEffect songPaths h (.send numRead (some numSent))
        { h with pc := .reading, accepted := h.accepted ++ h.stack.take numSent }
  | closed : h.pc = .closing →
      SongCallEffect songPaths h .closeClient { h with pc := .returned, log := h.log ++ [.closed] }

section Moves
variable {songPaths : List String} {h h' : SongHandler} {call : SongCall}

theorem choose_effect {m : Bytes} (place : h.pc = .receiving) (nonempty : m ≠ []) (fits : m.length ≤ bufferSize)
    (step : h.choose songPaths m = some h') : SongCallEffect songPaths h (.recv (some m)) h' := by
  obtain ⟨songIdx, read, step⟩ := Option.bind_eq_some_iff.mp step
  split at step
  · rename_i valid
    obtain ⟨path, found, step⟩ := Option.bind_eq_some_iff.mp step
    cases step
    exact .chosen place nonempty fits read valid found
  · cases step
    exact .refused place nonempty fits read (by assumption)

theorem songStep_effect (step : songStep songPaths h call = some h') : SongCallEffect songPaths h call h' := by
  cases call with
  | recv received =>
    cases place : h.pc with
    | receiving =>
      cases received with
      | none =>
        simp only [songStep, place] at step
        cases step
        exact .recvFailed place
      | some m =>
        cases m with
        | nil =>
          simp only [songStep, place, List.isEmpty_nil, if_true] at step
          cases step
          exact .recvClosed place
        | cons b rest =>
          simp only [songStep, place, List.isEmpty_cons, Bool.false_eq_true, if_false] at step
          split at step
          · exact choose_effect place (List.cons_ne_nil _ _) (by assumption) step
          · cases step
    | _ => simp [songStep, place] at step
  | fopen content =>
    cases place : h.pc with
    | opening songIdx path =>
      cases content with
      | none =>
        simp only [songStep, place] at step
        cases step
        exact .openFailed place
      | some content =>
        simp only [songStep, place] at step
        cases step
        exact .opened place
    | _ => simp [songStep, place] at step
  | fread numRead ferror =>
    cases place : h.pc with
    | reading =>
      cases opened : h.fd with
      | none => simp [songStep, place, opened] at step
      | some fd =>
        simp only [songStep, place, opened, Option.bind_eq_bind, Option.bind_some] at step
        split at step
        · rename_i nothing
          subst nothing
          split at step
          · rename_i failed
            cases step
            rw [failed]
            exact .readFailed place opened
          · rename_i fine
            split at step
            · cases step
              rw [Bool.eq_false_of_not_eq_true fine]
              exact .readEnd place opened (by assumption)
            · cases step
        · rename_i something
          split at step
          · rename_i possible
            cases step
            exact .read place opened something possible.1 possible.2
          · cases step
    | _ => simp [songStep, place] at step
  | send request numSent =>
    cases place : h.pc with
    | sending numRead =>
      cases numSent with
      | none =>
        simp only [songStep, place] at step
        split at step
        · rename_i same
          cases step
          subst same
          exact .sendFailed place
        · cases step
      | some numSent =>
        simp only [songStep, place] at step
        split at step
        · rename_i possible
          cases step
          obtain ⟨rfl, some_, part⟩ := possible
          exact .sent place some_ part
        · cases step
    | _ => simp [songStep, place] at step
  | closeClient =>
    cases place : h.pc with
    | closing =>
      simp only [songStep, place] at step
      cases step
      exact .closed place
    | _ => simp [songStep, place] at step

theorem SongCallEffect.step (move : SongCallEffect songPaths h call h') : songStep songPaths h call = some h' := by
  cases move with
  | recvFailed place => simp [songStep, place]
  | recvClosed place => simp [songStep, place]
  | refused place nonempty fits read invalid =>
    simp only [songStep, place, List.isEmpty_eq_false_iff.mpr nonempty, Bool.false_eq_true, if_false, if_pos fits,
      SongHandler.choose, read, Option.bind_eq_bind, Option.bind_some, if_neg invalid]
  | chosen place nonempty fits read valid found =>
    simp only [songStep, place, List.isEmpty_eq_false_iff.mpr nonempty, Bool.false_eq_true, if_false, if_pos fits,
      SongHandler.choose, read, Option.bind_eq_bind, Option.bind_some, if_pos valid, found]
  | openFailed place => simp [songStep, place]
  | opened place => simp [songStep, place]
  | readFailed place opened => simp [songStep, place, opened]
  | readEnd place opened ended => simp [songStep, place, opened, ended]
  | read place opened something short inside => simp [songStep, place, opened, something, short, inside]
  | sendFailed place => simp [songStep, place]
  | sent place some_ part => simp [songStep, place, some_, part]
  | closed place => simp [songStep, place]

end Moves

/-- A client and its handler, connected in both directions. `uplink` and `downlink` are the bytes that one
side has sent and the other one has not received; `closed` says that the handler has closed its socket. The last
two fields are history: what the handler has received, and its system calls. -/
structure SongSession where
  player : SongPlayer
  handler : SongHandler
  closed : Bool
  uplink : Bytes
  downlink : Bytes
  asked : Bytes
  calls : List SongCall

/-- A system call of one side. `closeSocket` is the `close` of `close_client`; the call `closeClient` of the handler
is the section behind it. -/
inductive SessionAction
  | player (call : PlayerCall)
  | handler (call : SongCall)
  | closeSocket

/-- What a session is given: the list of the songs, the files, what is typed, and what `command` and the buffer of
the handler hold, with the memory behind it. -/
structure SessionConfig where
  songPaths : List String
  files : String → Option Bytes
  typed : Bytes
  command : Bytes
  stack : Bytes

def SongSession.start (cfg : SessionConfig) : SongSession where
  player := .start
  handler := .start cfg.stack
  closed := false
  uplink := []
  downlink := []
  asked := []
  calls := []

/-- Whether the network and the file system can give this answer to the client. The end of the stream comes after
all bytes, once the other side has closed its socket. -/
def SongSession.answersPlayer (s : SongSession) : PlayerCall → Bool
  | .recv (some []) => s.downlink.isEmpty && s.closed
  | .recv (some bytes) => bytes.isPrefixOf s.downlink
  | _ => true

def SongSession.answersHandler (cfg : SessionConfig) (s : SongSession) : SongCall → Bool
  | .recv (some []) => s.uplink.isEmpty && s.player.pc.ended
  | .recv (some bytes) => bytes.isPrefixOf s.uplink
  | .fopen (some content) =>
    match s.handler.pc with
    | .opening _ path => cfg.files path = some content
    | _ => true
  | .closeClient => s.closed
  | _ => true

/-- The bytes that a call takes from the stream. -/
def PlayerCall.taken : PlayerCall → Bytes
  | .recv (some bytes) => bytes
  | _ => []

def SongCall.taken : SongCall → Bytes
  | .recv (some bytes) => bytes
  | _ => []

/-- What a call appends to `sent` or to `accepted` goes to the other side. -/
def sessionStep (cfg : SessionConfig) (s : SongSession) : SessionAction → Option SongSession
  | .player call =>
    if s.answersPlayer call then
      (playerStep cfg.typed cfg.command s.player call).map fun player => { s with
        player := player
        uplink := s.uplink ++ player.sent.drop s.player.sent.length
        downlink := s.downlink.drop call.taken.length }
    else none
  | .handler call =>
    if s.answersHandler cfg call then
      (songStep cfg.songPaths s.handler call).map fun handler => { s with
        handler := handler
        uplink := s.uplink.drop call.taken.length
        downlink := s.downlink ++ handler.accepted.drop s.handler.accepted.length
        asked := s.asked ++ call.taken
        calls := s.calls ++ [call] }
    else none
  | .closeSocket => if s.handler.pc = .closing ∧ ¬s.closed then some { s with closed := true } else none

def sessionSystem (cfg : SessionConfig) : System SongSession SessionAction where
  init s := s = .start cfg
  step := sessionStep cfg

/-- What the client knows at its place. -/
def PlayerInv (cfg : SessionConfig) (p : SongPlayer) : Prop :=
  match p.pc with
  | .prompting => p.sent = [] ∧ p.received = [] ∧ p.written = []
  | .requesting request =>
    typedRequest cfg.typed cfg.command = some request ∧ p.sent = [] ∧ p.received = [] ∧ p.written = []
  | .opening => p.received = [] ∧ p.written = []
  | .receiving | .finished => p.written = p.received
  | .writing bytes => p.written ++ bytes = p.received
  | .exited _ => p.written <+: p.received

/-- What is sent is the start of one request. -/
def SentRequest (cfg : SessionConfig) (sent : Bytes) : Prop :=
  sent ≠ [] → ∃ request, typedRequest cfg.typed cfg.command = some request ∧ sent <+: request

/-- The invariant of a session. No byte is lost, made up or moved in either direction, and what the handler
does with the first bytes that it receives is in its log. -/
structure SessionInv (cfg : SessionConfig) (s : SongSession) : Prop where
  stream : StreamInv cfg.stack s.calls s.handler
  up : s.asked ++ s.uplink = s.player.sent
  down : s.player.received ++ s.downlink = s.handler.accepted
  request : SentRequest cfg s.player.sent
  player : PlayerInv cfg s.player
  finished : s.player.pc = .finished → s.closed = true ∧ s.downlink = []
  closing : s.closed = true → s.handler.pc = .closing ∨ s.handler.pc = .returned
  returned : s.handler.pc = .returned → s.closed = true
  silent : s.handler.pc = .receiving → s.asked = []
  chosen : ∀ songIdx path, .requested songIdx path ∈ s.handler.log →
    atoi (overwrite cfg.stack s.asked) = some songIdx ∧ (1 ≤ songIdx ∧ songIdx ≤ songCount) ∧
      cfg.songPaths[(songIdx - 1).toNat]? = some path
  opening : ∀ songIdx path, s.handler.pc = .opening songIdx path → .requested songIdx path ∈ s.handler.log
  opened : ∀ fd, s.handler.fd = some fd →
    ∃ songIdx path, .requested songIdx path ∈ s.handler.log ∧ cfg.files path = some fd.content
  chunk : ∀ numRead, s.handler.pc = .sending numRead → 1 ≤ numRead

variable {cfg : SessionConfig} {s s' : SongSession} {p p' : SongPlayer} {h h' : SongHandler}

theorem SessionInv.start (cfg : SessionConfig) : SessionInv cfg (.start cfg) where
  stream := ⟨rfl, rfl⟩
  up := rfl
  down := rfl
  request some_ := absurd rfl some_
  player := ⟨rfl, rfl, rfl⟩
  finished over_ := by cases over_
  closing closed := by cases closed
  returned place := by cases place
  silent _ := rfl
  chosen songIdx path member := by simp [SongSession.start, SongHandler.start] at member
  opening songIdx path place := by cases place
  opened fd opened := by cases opened
  chunk numRead place := by cases place

theorem PlayerInv.move {call : PlayerCall} (inv : PlayerInv cfg p)
    (move : PlayerMove cfg.typed cfg.command p call p') : PlayerInv cfg p' := by
  cases move with
  | fgets place reads =>
    rw [PlayerInv, place] at inv
    exact ⟨reads, inv⟩
  | sendFailed place =>
    rw [PlayerInv, place] at inv
    exact inv.2.2
  | send place fits some_ =>
    rw [PlayerInv, place] at inv
    exact inv.2.2
  | popenFailed place =>
    rw [PlayerInv, place] at inv
    exact inv.1 ▸ inv.2 ▸ List.prefix_rfl
  | popen place =>
    rw [PlayerInv, place] at inv
    exact inv.2.trans inv.1.symm
  | recvFailed place =>
    rw [PlayerInv, place] at inv
    exact inv ▸ List.prefix_rfl
  | recvEnd place =>
    rw [PlayerInv, place] at inv
    exact inv
  | recv place nonempty fits =>
    rw [PlayerInv, place] at inv
    exact congrArg (· ++ _) inv
  | fwriteFailed place =>
    rw [PlayerInv, place] at inv
    exact ⟨_, inv⟩
  | fwrite place =>
    rw [PlayerInv, place] at inv
    exact inv

/-- A call only appends to what the client has sent and received. -/
theorem PlayerMove.received {call : PlayerCall} (move : PlayerMove cfg.typed cfg.command p call p') :
    p'.received = p.received ++ call.taken := by
  cases move with
  | recv => rfl
  | _ => exact (List.append_nil _).symm

theorem PlayerMove.sent {call : PlayerCall} (inv : PlayerInv cfg p) (request : SentRequest cfg p.sent)
    (move : PlayerMove cfg.typed cfg.command p call p') : p.sent <+: p'.sent ∧ SentRequest cfg p'.sent := by
  cases move with
  | @send typed n place fits some_ =>
    rw [PlayerInv, place] at inv
    obtain ⟨reads, nothing, -, -⟩ := inv
    refine ⟨List.prefix_append _ _, fun _ => ⟨typed, reads, ?_⟩⟩
    rw [nothing, List.nil_append]
    exact List.take_prefix _ _
  | _ => exact ⟨List.prefix_rfl, request⟩

theorem answersPlayer_taken {call : PlayerCall} (answers : s.answersPlayer call = true) :
    call.taken <+: s.downlink := by
  cases call with
  | recv received =>
    cases received with
    | none => exact List.nil_prefix
    | some bytes =>
      cases bytes with
      | nil => exact List.nil_prefix
      | cons b rest => exact List.isPrefixOf_iff_prefix.mp answers
  | _ => exact List.nil_prefix

theorem answersHandler_taken {call : SongCall} (answers : s.answersHandler cfg call = true) :
    call.taken <+: s.uplink := by
  cases call with
  | recv received =>
    cases received with
    | none => exact List.nil_prefix
    | some bytes =>
      cases bytes with
      | nil => exact List.nil_prefix
      | cons b rest => exact List.isPrefixOf_iff_prefix.mp answers
  | _ => exact List.nil_prefix

/-- Taking the front of a stream. -/
theorem append_taken {past taken stream : Bytes} (front : taken <+: stream) :
    past ++ taken ++ stream.drop taken.length = past ++ stream := by
  obtain ⟨rest, rfl⟩ := front
  rw [List.drop_left, List.append_assoc]

/-- Putting at its end what has been appended to a history. -/
theorem append_grown {past stream before after : Bytes} (whole : past ++ stream = before) (grown : before <+: after) :
    past ++ (stream ++ after.drop before.length) = after := by
  obtain ⟨added, rfl⟩ := grown
  rw [List.drop_left, ← List.append_assoc, whole]

theorem SessionInv.playerStep {call : PlayerCall} (inv : SessionInv cfg s) (answers : s.answersPlayer call = true)
    (move : PlayerMove cfg.typed cfg.command s.player call p') :
    SessionInv cfg { s with
      player := p'
      uplink := s.uplink ++ p'.sent.drop s.player.sent.length
      downlink := s.downlink.drop call.taken.length } where
  stream := inv.stream
  up := append_grown inv.up (move.sent inv.player inv.request).1
  down := by rw [move.received, append_taken (answersPlayer_taken answers), inv.down]
  request := (move.sent inv.player inv.request).2
  player := inv.player.move move
  finished over_ := by
    cases move with
    | recvEnd =>
      simp only [SongSession.answersPlayer, Bool.and_eq_true, List.isEmpty_iff] at answers
      exact ⟨answers.2, by rw [answers.1]; rfl⟩
    | _ => cases over_
  closing := inv.closing
  returned := inv.returned
  silent := inv.silent
  chosen := inv.chosen
  opening := inv.opening
  opened := inv.opened
  chunk := inv.chunk

theorem SongCallEffect.accepted {call : SongCall} (move : SongCallEffect cfg.songPaths h call h') :
    h.accepted <+: h'.accepted := by
  cases move with
  | sent => exact List.prefix_append _ _
  | _ => exact List.prefix_rfl

/-- Only the first call takes something from the stream. -/
theorem SongCallEffect.taken {call : SongCall} (move : SongCallEffect cfg.songPaths h call h')
    (later : h.pc ≠ .receiving) : call.taken = [] := by
  cases move with
  | refused place => exact absurd place later
  | chosen place => exact absurd place later
  | _ => rfl

theorem SongCallEffect.leaves {call : SongCall} (move : SongCallEffect cfg.songPaths h call h') :
    h'.pc ≠ .receiving ∧ h.pc ≠ .returned := by
  cases move with
  | _ => simp_all [SongHandler.fail]

/-- The section behind the `close` is all that is left of a handler that closes its connection. -/
theorem SongCallEffect.closes {call : SongCall} (move : SongCallEffect cfg.songPaths h call h')
    (closing : h.pc = .closing) : h'.pc = .returned := by
  cases move with
  | closed => rfl
  | _ => simp_all

/-- A song is requested by the first message only. -/
theorem SongCallEffect.requested {call : SongCall} (move : SongCallEffect cfg.songPaths h call h')
    {songIdx : Int} {path : String} (member : .requested songIdx path ∈ h'.log) :
    .requested songIdx path ∈ h.log ∨
    h.pc = .receiving ∧ atoi (overwrite h.stack call.taken) = some songIdx ∧ (1 ≤ songIdx ∧ songIdx ≤ songCount) ∧
      cfg.songPaths[(songIdx - 1).toNat]? = some path := by
  cases move with
  | @chosen m songIdx' path' place nonempty fits reads valid found =>
    rcases List.mem_append.mp member with earlier | last
    · exact .inl earlier
    · cases List.mem_singleton.mp last
      exact .inr ⟨place, reads, valid, found⟩
  | opened => exact .inl member
  | read => exact .inl member
  | sent => exact .inl member
  | _ => exact .inl (by simpa [SongHandler.fail] using member)

theorem SessionInv.handlerStep {call : SongCall} (inv : SessionInv cfg s) (answers : s.answersHandler cfg call = true)
    (move : SongCallEffect cfg.songPaths s.handler call h') :
    SessionInv cfg { s with
      handler := h'
      uplink := s.uplink.drop call.taken.length
      downlink := s.downlink ++ h'.accepted.drop s.handler.accepted.length
      asked := s.asked ++ call.taken
      calls := s.calls ++ [call] } where
  stream := inv.stream.step move.step
  up := by rw [append_taken (answersHandler_taken answers), inv.up]
  down := append_grown inv.down move.accepted
  request := inv.request
  player := inv.player
  finished over_ := by
    obtain ⟨closed, drained⟩ := inv.finished over_
    refine ⟨closed, ?_⟩
    cases move with
    | sent place =>
      rcases inv.closing closed with here | here <;> cases place.symm.trans here
    | _ => simp [drained, SongHandler.fail]
  closing closed := by
    rcases inv.closing closed with here | here
    · exact Or.inr (move.closes here)
    · exact absurd here move.leaves.2
  returned place := by
    cases move with
    | closed => exact answers
    | _ => cases place
  silent place := absurd place move.leaves.1
  chosen songIdx path member := by
    rcases move.requested member with earlier | ⟨place, reads, valid, found⟩
    · have later : s.handler.pc ≠ .receiving := by
        intro place
        have stream := inv.stream
        rw [StreamInv, place] at stream
        simp [stream.2, SongHandler.start] at earlier
      rw [move.taken later, List.append_nil]
      exact inv.chosen songIdx path earlier
    · have stream := inv.stream
      rw [StreamInv, place] at stream
      refine ⟨?_, valid, found⟩
      rw [inv.silent place, List.nil_append, ← reads, stream.2]
      rfl
  opening songIdx path place := by
    cases move with
    | chosen => cases place; exact List.mem_append_right _ (List.mem_singleton_self _)
    | _ => cases place
  opened fd opened := by
    cases move with
    | @opened songIdx path content place =>
      cases opened
      have content : cfg.files path = some content := by simpa [SongSession.answersHandler, place] using answers
      exact ⟨songIdx, path, inv.opening _ _ place, content⟩
    | @read fd' _ _ _ opened' =>
      cases opened
      exact inv.opened fd' opened'
    | sent => exact inv.opened fd opened
    | _ =>
      obtain ⟨songIdx, path, member, content⟩ := inv.opened fd opened
      exact ⟨songIdx, path, List.mem_append_left _ member, content⟩
  chunk numRead place := by
    cases move with
    | read _ _ some_ =>
      cases place
      exact Nat.pos_of_ne_zero some_
    | _ => cases place

theorem SessionInv.closeSocket (inv : SessionInv cfg s) (closing : s.handler.pc = .closing) :
    SessionInv cfg { s with closed := true } :=
  { inv with
    finished := fun over_ => ⟨rfl, (inv.finished over_).2⟩
    closing := fun _ => Or.inl closing
    returned := fun _ => rfl }

/-- What one action can do. -/
inductive SessionMove (cfg : SessionConfig) (s : SongSession) : SessionAction → SongSession → Prop
  | player {call p'} : s.answersPlayer call = true → PlayerMove cfg.typed cfg.command s.player call p' →
      SessionMove cfg s (.player call) { s with
        player := p'
        uplink := s.uplink ++ p'.sent.drop s.player.sent.length
        downlink := s.downlink.drop call.taken.length }
  | handler {call h'} : s.answersHandler cfg call = true → SongCallEffect cfg.songPaths s.handler call h' →
      SessionMove cfg s (.handler call) { s with
        handler := h'
        uplink := s.uplink.drop call.taken.length
        downlink := s.downlink ++ h'.accepted.drop s.handler.accepted.length
        asked := s.asked ++ call.taken
        calls := s.calls ++ [call] }
  | closeSocket : s.handler.pc = .closing → s.closed = false →
      SessionMove cfg s .closeSocket { s with closed := true }

theorem sessionStep_iff {action : SessionAction} :
    sessionStep cfg s action = some s' ↔ SessionMove cfg s action s' := by
  constructor
  · intro step
    cases action with
    | player call =>
      simp only [sessionStep] at step
      split at step
      · obtain ⟨p', move, rfl⟩ := Option.map_eq_some_iff.mp step
        exact .player (by assumption) (playerStep_iff.mp move)
      · cases step
    | handler call =>
      simp only [sessionStep] at step
      split at step
      · obtain ⟨h', move, rfl⟩ := Option.map_eq_some_iff.mp step
        exact .handler (by assumption) (songStep_effect move)
      · cases step
    | closeSocket =>
      simp only [sessionStep] at step
      split at step
      · rename_i here
        cases step
        exact .closeSocket here.1 (by simpa using here.2)
      · cases step
  · intro move
    cases move with
    | player answers move => rw [sessionStep, if_pos answers, playerStep_iff.mpr move, Option.map_some]
    | handler answers move => rw [sessionStep, if_pos answers, move.step, Option.map_some]
    | closeSocket closing open_ => simp [sessionStep, closing, open_]

theorem SessionInv.reach (reach : (sessionSystem cfg).Reach s) : SessionInv cfg s := by
  refine reach.invariant (fun s initial => initial ▸ .start cfg) fun s action t _ inv step => ?_
  cases sessionStep_iff.mp step with
  | player answers move => exact inv.playerStep answers move
  | handler answers move => exact inv.handlerStep answers move
  | closeSocket closing => exact inv.closeSocket closing

/-- A song that a handler has chosen: its number is the one at the start of what was typed, if the received part
of it ends the number. -/
structure SongChosen (cfg : SessionConfig) (s : SongSession) (songIdx : Int) (path : String) : Prop where
  number : 1 ≤ songIdx ∧ songIdx ≤ songCount
  listed : cfg.songPaths[(songIdx - 1).toNat]? = some path
  typed : endsNumber s.asked = true →
    ∃ request, typedRequest cfg.typed cfg.command = some request ∧ atoi request = some songIdx

theorem SessionInv.songChosen (inv : SessionInv cfg s) {songIdx : Int} {path : String}
    (member : .requested songIdx path ∈ s.handler.log) : SongChosen cfg s songIdx path where
  number := (inv.chosen songIdx path member).2.1
  listed := (inv.chosen songIdx path member).2.2
  typed ends := by
    have some_ : s.player.sent ≠ [] := by
      intro empty
      have nothing : s.asked = [] := (List.append_eq_nil_iff.mp (inv.up.trans empty)).1
      rw [nothing] at ends
      cases ends
    obtain ⟨request, reads, start⟩ := inv.request some_
    have asked : s.asked <+: request := (inv.up ▸ List.prefix_append _ _ : s.asked <+: s.player.sent).trans start
    obtain ⟨rest, rfl⟩ := asked
    refine ⟨_, reads, ?_⟩
    rw [atoi_append ends, ← (inv.chosen songIdx path member).1, atoi_overwrite ends]

/-- Where success is reported, the file of the chosen song has been given to `send`. -/
theorem SessionInv.streamed (inv : SessionInv cfg s) (success : .streamed ∈ s.handler.log) :
    ∃ songIdx path content, .requested songIdx path ∈ s.handler.log ∧ SongChosen cfg s songIdx path ∧
      cfg.files path = some content ∧ (s.handler.accepted = content ↔ ∀ call ∈ s.calls, call.takesAll = true) := by
  obtain ⟨fd, opened, streamed⟩ : ∃ fd, s.handler.fd = some fd ∧ Streamed s.calls s.handler fd.content.length := by
    have stream := inv.stream
    unfold StreamInv at stream
    cases place : s.handler.pc with
    | receiving =>
      rw [place] at stream
      rw [stream.2] at success
      simp [SongHandler.start] at success
    | opening | reading | sending =>
      rw [place] at stream
      exact absurd success stream.2.1
    | closing | returned =>
      rw [place] at stream
      rcases stream with ⟨-, log⟩ | ⟨-, -, whole⟩
      · exact absurd success log
      · exact whole
  obtain ⟨songIdx, path, member, file⟩ := inv.opened fd opened
  refine ⟨songIdx, path, fd.content, member, inv.songChosen member, file, ?_⟩
  constructor
  · intro whole call member
    by_contra fewer
    have short := streamed.short call member (by simpa using fewer)
    rw [whole] at short
    exact Nat.lt_irrefl _ short
  · intro all
    rw [streamed.full all fd opened, List.take_length]

/-- What the client has played at its end. -/
theorem SessionInv.delivers (inv : SessionInv cfg s) (finished : s.player.pc = .finished) :
    s.closed = true ∧ s.player.written = s.handler.accepted ∧
      (.streamed ∈ s.handler.log → ∃ songIdx path content, .requested songIdx path ∈ s.handler.log ∧
        SongChosen cfg s songIdx path ∧ cfg.files path = some content ∧
        (s.player.written = content ↔ ∀ call ∈ s.calls, call.takesAll = true)) := by
  obtain ⟨closed, delivered⟩ := inv.finished finished
  have written : s.player.written = s.player.received := by
    have player := inv.player
    rw [PlayerInv, finished] at player
    exact player
  have played : s.player.written = s.handler.accepted := by
    rw [written, ← inv.down, delivered, List.append_nil]
  exact ⟨closed, played, fun success => played ▸ inv.streamed success⟩

/-- A session whose client has come to its end has played what the handler has sent until it closed its socket. If
the handler reports success, that is the file of the chosen song, except where some call of `send` took less than it
was given; then the end of the song is missing. -/
theorem song_session_delivers (reach : (sessionSystem cfg).Reach s) (finished : s.player.pc = .finished) :
    s.closed = true ∧ s.player.written = s.handler.accepted ∧
      (.streamed ∈ s.handler.log → ∃ songIdx path content, .requested songIdx path ∈ s.handler.log ∧
        SongChosen cfg s songIdx path ∧ cfg.files path = some content ∧
        (s.player.written = content ↔ ∀ call ∈ s.calls, call.takesAll = true)) :=
  (SessionInv.reach reach).delivers finished

/-- The second of three songs is typed; its file has two bytes. -/
def secondSongConfig : SessionConfig where
  songPaths := ["a.mp3", "b.mp3", "c.mp3"]
  files path := if path = "b.mp3" then some [7, 8] else none
  typed := ascii "2\n"
  command := List.replicate commandSize 0
  stack := List.replicate (bufferSize + 1) 0

/-- The song is played to its end; the last `recv` of the client finds the end of the stream, before the handler has
returned. -/
def secondSongRun : List SessionAction :=
  [.player .fgets, .player (.send (some 2)), .handler (.recv (some (ascii "2\n"))), .player (.popen true),
    .handler (.fopen (some [7, 8])), .handler (.fread 2 false), .handler (.send 2 (some 2)),
    .player (.recv (some [7, 8])), .handler (.fread 0 false), .player (.fwrite true), .closeSocket,
    .player (.recv (some [])), .handler .closeClient]

theorem song_session_delivers_second_song :
    ∃ s, (sessionSystem secondSongConfig).exec (.start secondSongConfig) secondSongRun = some s ∧
      s.closed = true ∧ s.player.written = s.handler.accepted := by
  have run : (sessionSystem secondSongConfig).exec (.start secondSongConfig) secondSongRun = some _ := rfl
  have delivered := song_session_delivers (System.Reach.exec (.start rfl) run) rfl
  exact ⟨_, run, delivered.1, delivered.2.1⟩

end PCProject
