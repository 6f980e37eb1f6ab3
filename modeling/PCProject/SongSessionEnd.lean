import PCProject.SongSession
import PCProject.Lib.Potential
import Mathlib.Algebra.Order.BigOperators.Group.List
import Mathlib.Algebra.GroupWithZero.Nat
import Mathlib.Algebra.Order.Group.Nat

namespace PCProject

def SessionConfig.fileSize (cfg : SessionConfig) (path : String) : Nat := ((cfg.files path).map List.length).getD 0

/-- The bytes of all songs. -/
def SessionConfig.total (cfg : SessionConfig) : Nat := (cfg.songPaths.map cfg.fileSize).sum

/-- The system calls that the client still makes, apart from those for bytes that it has not received. -/
def PlayerPc.left : PlayerPc → Nat
  | .prompting => 4
  | .requesting _ => 3
  | .opening => 2
  | .writing _ => 2
  | .receiving => 1
  | .exited _ | .finished => 0

/-- The bytes of the open file that are not read yet. -/
def SongHandler.unread (h : SongHandler) : Nat := (h.fd.map fun fd => fd.content.length - fd.position).getD 0

/-- The most system calls that a handler still makes, with two more of the client for each byte of the song. -/
def SongHandler.left (cfg : SessionConfig) (h : SongHandler) : Nat :=
  match h.pc with
  | .receiving => 4 * cfg.total + 4
  | .opening _ path => 4 * cfg.fileSize path + 3
  | .reading => 4 * h.unread + 2
  | .sending numRead => 4 * h.unread + 3 * numRead + 2
  | .closing => 1
  | .returned => 0

def SongSession.left (cfg : SessionConfig) (s : SongSession) : Nat :=
  s.player.pc.left + s.handler.left cfg + (!s.closed).toNat + 2 * s.downlink.length

variable {cfg : SessionConfig} {s s' : SongSession} {p p' : SongPlayer} {h h' : SongHandler}

theorem SongSession.left_start : (SongSession.start cfg).left cfg = 4 * cfg.total + 9 := by
  simp only [SongSession.left, SongSession.start, SongPlayer.start, PlayerPc.left, SongHandler.start, SongHandler.left,
    List.length_nil, Bool.not_false, Bool.toNat_true]
  omega

theorem SessionConfig.fileSize_le {path : String} (listed : path ∈ cfg.songPaths) : cfg.fileSize path ≤ cfg.total :=
  List.le_sum_of_mem (List.mem_map_of_mem listed)

theorem PlayerMove.left {call : PlayerCall} (move : PlayerMove cfg.typed cfg.command p call p') :
    p'.pc.left + 1 ≤ p.pc.left + 2 * call.taken.length := by
  cases move with
  | fgets place => simp [place, PlayerPc.left]
  | sendFailed place => simp [place, PlayerPc.left]
  | send place => simp [place, PlayerPc.left]
  | popenFailed place =>
    simp only [place, PlayerPc.left]
    omega
  | popen place => simp [place, PlayerPc.left]
  | recvFailed place => simp [place, PlayerPc.left]
  | recvEnd place => simp [place, PlayerPc.left]
  | recv place nonempty =>
    have some_ := List.length_pos_of_ne_nil nonempty
    simp only [place, PlayerPc.left, PlayerCall.taken]
    omega
  | fwriteFailed place =>
    simp only [place, PlayerPc.left]
    omega
  | fwrite place => simp [place, PlayerPc.left]

theorem SongCallEffect.left {call : SongCall} (answers : s.answersHandler cfg call = true)
    (chunk : ∀ numRead, s.handler.pc = .sending numRead → 1 ≤ numRead)
    (move : SongCallEffect cfg.songPaths s.handler call h') :
    h'.left cfg + 2 * (h'.accepted.drop s.handler.accepted.length).length + 1 ≤ s.handler.left cfg := by
  cases move with
  | recvFailed place => simp [place, SongHandler.left, SongHandler.fail]
  | recvClosed place => simp [place, SongHandler.left, SongHandler.fail]
  | refused place => simp [place, SongHandler.left, SongHandler.fail]
  | chosen place nonempty fits read valid found =>
    have part := SessionConfig.fileSize_le (List.mem_of_getElem? found)
    simp only [SongHandler.left, place, List.drop_length, List.length_nil]
    omega
  | openFailed place => simp [place, SongHandler.left, SongHandler.fail]
  | @opened songIdx path content place =>
    have content : cfg.files path = some content := by simpa [SongSession.answersHandler, place] using answers
    simp [SongHandler.left, SongHandler.unread, place, SessionConfig.fileSize, content]
  | readFailed place => simp [place, SongHandler.left, SongHandler.fail]
  | readEnd place => simp [place, SongHandler.left, SongHandler.fail]
  | read place opened some_ _ inside =>
    simp only [SongHandler.left, SongHandler.unread, place, opened, List.drop_length, List.length_nil, Option.map_some,
      Option.getD_some]
    omega
  | sendFailed place => simp [place, SongHandler.left, SongHandler.fail]
  | @sent numRead numSent place some_ part =>
    have positive := chunk numRead place
    simp only [SongHandler.left, SongHandler.unread, place, List.drop_left, List.length_take]
    omega
  | closed place => simp [place, SongHandler.left]

theorem SessionMove.left {action : SessionAction} (inv : SessionInv cfg s) (move : SessionMove cfg s action s') :
    s'.left cfg + 1 ≤ s.left cfg := by
  cases move with
  | @player call p' answers move =>
    have cost := move.left
    have front := (answersPlayer_taken answers).length_le
    simp only [SongSession.left, List.length_drop]
    omega
  | handler answers move =>
    have cost := move.left answers inv.chunk
    simp only [SongSession.left, List.length_append]
    omega
  | closeSocket _ open_ =>
    simp only [SongSession.left, open_, Bool.not_false, Bool.not_true, Bool.toNat_true, Bool.toNat_false]
    omega

/-- An error result. Without one a file may still be missing. -/
def SessionAction.faulty : SessionAction → Bool
  | .player (.send none) | .player (.popen false) | .player (.recv none) | .player (.fwrite false) => true
  | .handler (.recv none) | .handler (.fread 0 true) | .handler (.send _ none) => true
  | _ => false

/-- Both sides have come to their end. -/
def SongSession.over (s : SongSession) : Prop := s.player.pc.ended = true ∧ s.handler.pc = .returned

/-- Both sides wait for the first byte of the other one. -/
def SongSession.mute (s : SongSession) : Prop :=
  s.player.pc = .receiving ∧ s.handler.pc = .receiving ∧ s.player.sent = []

/-- No call but one that fails is possible. -/
def SongSession.still (cfg : SessionConfig) (s : SongSession) : Prop :=
  ∀ action, action.faulty = false → sessionStep cfg s action = none

/-- A handler can read a number from what it receives if some byte behind its buffer is a NUL. -/
theorem received_number {stack m : Bytes} (fits : m.length ≤ bufferSize) (ends : 0 ∈ stack.drop bufferSize) :
    ∃ songIdx, atoi (overwrite stack m) = some songIdx := by
  have tail : stack.drop bufferSize <:+ stack.drop m.length := by
    obtain ⟨more, same⟩ := Nat.exists_eq_add_of_le fits
    rw [same, ← List.drop_drop]
    exact List.drop_suffix _ _
  exact atoi_string (List.mem_append_right _ (tail.mem ends))

/-- The first message of the client is always decided on. -/
theorem SessionInv.decides (inv : SessionInv cfg s) (listed : cfg.songPaths.length = songCount)
    (ends : 0 ∈ cfg.stack.drop bufferSize) (place : s.handler.pc = .receiving) {m : Bytes} (nonempty : m ≠ [])
    (fits : m.length ≤ bufferSize) : ∃ h', SongCallEffect cfg.songPaths s.handler (.recv (some m)) h' := by
  have stream := inv.stream
  rw [StreamInv, place] at stream
  have stack : s.handler.stack = cfg.stack := by rw [stream.2]; rfl
  obtain ⟨songIdx, reads⟩ := received_number (m := m) fits ends
  rw [← stack] at reads
  by_cases valid : 1 ≤ songIdx ∧ songIdx ≤ songCount
  · have inside : (songIdx - 1).toNat < cfg.songPaths.length := by
      rw [listed]
      omega
    exact ⟨_, .chosen place nonempty fits reads valid (List.getElem?_eq_getElem inside)⟩
  · exact ⟨_, .refused place nonempty fits reads valid⟩

/-- A handler goes on, except at its end and where it waits for a client that goes on itself. -/
theorem SessionInv.handler_goes (inv : SessionInv cfg s) (listed : cfg.songPaths.length = songCount)
    (ends : 0 ∈ cfg.stack.drop bufferSize) :
    s.handler.pc = .returned ∨ (s.handler.pc = .receiving ∧ s.uplink = [] ∧ s.player.pc.ended = false) ∨
      ∃ action t, action.faulty = false ∧ SessionMove cfg s action t := by
  have stream := inv.stream
  cases place : s.handler.pc with
  | receiving =>
    cases up : s.uplink with
    | nil =>
      cases over_ : s.player.pc.ended with
      | false => exact .inr (.inl ⟨rfl, rfl, rfl⟩)
      | true =>
        exact .inr (.inr ⟨_, _, rfl, .handler (by simp [SongSession.answersHandler, up, over_])
          (.recvClosed place)⟩)
    | cons b rest =>
      obtain ⟨h', move⟩ := inv.decides listed ends place (List.cons_ne_nil b [])
        (show 1 ≤ bufferSize by decide)
      exact .inr (.inr ⟨_, _, rfl, .handler (by simp [SongSession.answersHandler, up]) move⟩)
  | opening songIdx path =>
    cases file : cfg.files path with
    | none => exact .inr (.inr ⟨_, _, rfl, .handler rfl (.openFailed place)⟩)
    | some content =>
      have answers : s.answersHandler cfg (.fopen (some content)) = true := by
        simp [SongSession.answersHandler, place, file]
      exact .inr (.inr ⟨_, _, rfl, .handler answers (.opened place)⟩)
  | reading =>
    rw [StreamInv, place] at stream
    obtain ⟨-, -, fd, opened, inside, -⟩ := stream
    by_cases all : fd.content.length ≤ fd.position
    · exact .inr (.inr ⟨_, _, rfl, .handler rfl (.readEnd place opened all)⟩)
    · have one : SongCallEffect cfg.songPaths _ (.fread 1 false) _ :=
        .read place opened (by decide) (by decide) (by omega)
      exact .inr (.inr ⟨_, _, rfl, .handler rfl one⟩)
  | sending numRead =>
    exact .inr (.inr ⟨_, _, rfl, .handler rfl (.sent place (inv.chunk numRead place) le_rfl)⟩)
  | closing =>
    cases closed : s.closed with
    | false => exact .inr (.inr ⟨_, _, rfl, .closeSocket place closed⟩)
    | true =>
      have answers : s.answersHandler cfg .closeClient = true := closed
      exact .inr (.inr ⟨_, _, rfl, .handler answers (.closed place)⟩)
  | returned => exact .inl rfl

/-- A client goes on, except at its end and where it waits for a handler that goes on itself. -/
theorem player_goes (typed : cfg.typed ≠ []) :
    s.player.pc.ended = true ∨ (s.player.pc = .receiving ∧ s.downlink = [] ∧ s.closed = false) ∨
      ∃ action t, action.faulty = false ∧ SessionMove cfg s action t := by
  cases place : s.player.pc with
  | prompting =>
    exact .inr (.inr ⟨_, _, rfl, .player rfl (.fgets place (typedRequest_typed cfg.command typed))⟩)
  | requesting request =>
    exact .inr (.inr ⟨_, _, rfl, .player rfl (.send place le_rfl fun some_ => List.length_pos_of_ne_nil some_)⟩)
  | opening => exact .inr (.inr ⟨_, _, rfl, .player rfl (.popen place)⟩)
  | receiving =>
    cases down : s.downlink with
    | nil =>
      cases closed : s.closed with
      | true =>
        exact .inr (.inr ⟨_, _, rfl, .player (by simp [SongSession.answersPlayer, down, closed]) (.recvEnd place)⟩)
      | false => exact .inr (.inl ⟨rfl, rfl, rfl⟩)
    | cons b rest =>
      exact .inr (.inr ⟨_, _, rfl, .player (by simp [SongSession.answersPlayer, down])
        (.recv place (List.cons_ne_nil b []) (show 1 ≤ playerBufferSize by decide))⟩)
  | writing bytes => exact .inr (.inr ⟨_, _, rfl, .player rfl (.fwrite place)⟩)
  | exited error => exact .inl rfl
  | finished => exact .inl rfl

/-- Where both sides wait, each one waits for the other. -/
theorem SessionInv.mute_still (inv : SessionInv cfg s) (mute : s.mute) : s.still cfg := by
  obtain ⟨playerPlace, place, nothing⟩ := mute
  obtain ⟨-, up⟩ := List.append_eq_nil_iff.mp (inv.up.trans nothing)
  have stream := inv.stream
  rw [StreamInv, place] at stream
  have silent : s.handler.accepted = [] := by rw [stream.2]; rfl
  obtain ⟨-, down⟩ := List.append_eq_nil_iff.mp (inv.down.trans silent)
  intro action fine
  by_contra more
  obtain ⟨t, step⟩ := Option.ne_none_iff_exists'.mp more
  cases sessionStep_iff.mp step with
  | player answers move =>
    cases move with
    | recvFailed => cases fine
    | recvEnd =>
      simp only [SongSession.answersPlayer, Bool.and_eq_true] at answers
      rcases inv.closing answers.2 with here | here <;> cases place.symm.trans here
    | recv _ nonempty =>
      have front := answersPlayer_taken answers
      rw [down] at front
      exact nonempty (List.prefix_nil.mp front)
    | _ => simp_all
  | handler answers move =>
    cases move with
    | recvFailed => cases fine
    | recvClosed => simp [SongSession.answersHandler, playerPlace, PlayerPc.ended] at answers
    | refused _ nonempty =>
      have front := answersHandler_taken answers
      rw [up] at front
      exact nonempty (List.prefix_nil.mp front)
    | chosen _ nonempty =>
      have front := answersHandler_taken answers
      rw [up] at front
      exact nonempty (List.prefix_nil.mp front)
    | _ => simp_all
  | closeSocket closing => cases place.symm.trans closing

theorem over_still (over_ : s.over) : s.still cfg := by
  obtain ⟨ended, returned⟩ := over_
  intro action _
  by_contra more
  obtain ⟨t, step⟩ := Option.ne_none_iff_exists'.mp more
  cases sessionStep_iff.mp step with
  | player _ move => cases move <;> simp_all [PlayerPc.ended]
  | handler _ move => exact move.leaves.2 returned
  | closeSocket closing => cases returned.symm.trans closing

theorem SessionInv.still_iff (inv : SessionInv cfg s) (typed : cfg.typed ≠ [])
    (listed : cfg.songPaths.length = songCount) (ends : 0 ∈ cfg.stack.drop bufferSize) :
    s.still cfg ↔ s.over ∨ s.mute := by
  refine ⟨fun still => ?_, fun place => place.elim over_still inv.mute_still⟩
  have stuck {action : SessionAction} {t : SongSession} (fine : action.faulty = false)
      (move : SessionMove cfg s action t) : False := by
    have step := sessionStep_iff.mpr move
    rw [still action fine] at step
    cases step
  rcases inv.handler_goes listed ends with returned | ⟨place, up, going⟩ | ⟨action, t, fine, move⟩
  · rcases player_goes typed with ended | ⟨_, _, open_⟩ | ⟨action, t, fine, move⟩
    · exact .inl ⟨ended, returned⟩
    · cases (inv.returned returned).symm.trans open_
    · exact (stuck fine move).elim
  · rcases player_goes typed with ended | ⟨playerPlace, _, _⟩ | ⟨action, t, fine, move⟩
    · rw [going] at ended
      cases ended
    · exact .inr ⟨playerPlace, place, by rw [← inv.up, inv.silent place, up, List.append_nil]⟩
    · exact (stuck fine move).elim
  · exact (stuck fine move).elim

/-- What a client that has sent nothing has done: its `send` has failed, which it does not look at, or the request
is empty. -/
structure Unsent (cfg : SessionConfig) (past : List SessionAction) (s : SongSession) : Prop where
  inv : SessionInv cfg s
  cause : s.player.sent = [] → s.player.pc = .prompting ∨ (∃ request, s.player.pc = .requesting request) ∨
    .player (.send none) ∈ past ∨ typedRequest cfg.typed cfg.command = some []

theorem Unsent.step {past : List SessionAction} {action : SessionAction} (unsent : Unsent cfg past s)
    (move : SessionMove cfg s action s') : Unsent cfg (past ++ [action]) s' := by
  have kept {sent : Bytes} (same : s.player.sent = sent) (nothing : sent = [])
      (place : s.player.pc ≠ .prompting) (later : ∀ request, s.player.pc ≠ .requesting request) :
      .player (.send none) ∈ past ++ [action] ∨ typedRequest cfg.typed cfg.command = some [] := by
    rcases unsent.cause (same.trans nothing) with start | ⟨request, waiting⟩ | failed | empty
    · exact absurd start place
    · exact absurd waiting (later request)
    · exact .inl (List.mem_append_left _ failed)
    · exact .inr empty
  cases move with
  | player answers move =>
    refine ⟨unsent.inv.playerStep answers move, fun nothing => ?_⟩
    cases move with
    | fgets => exact .inr (.inl ⟨_, rfl⟩)
    | sendFailed => exact .inr (.inr (.inl (by simp)))
    | @send request n place fits some_ =>
      have player := unsent.inv.player
      rw [PlayerInv, place] at player
      have taken := (List.append_eq_nil_iff.mp nothing).2
      have empty : request = [] := by
        by_contra nonempty
        have positive := some_ nonempty
        rcases List.take_eq_nil_iff.mp taken with zero | nil
        · omega
        · exact nonempty nil
      exact .inr (.inr (.inr (empty ▸ player.1)))
    | _ => exact .inr (.inr (kept rfl nothing (by simp [*]) (by simp [*])))
  | handler answers move =>
    refine ⟨unsent.inv.handlerStep answers move, fun nothing => ?_⟩
    rcases unsent.cause nothing with start | waiting | failed | empty
    · exact .inl start
    · exact .inr (.inl waiting)
    · exact .inr (.inr (.inl (List.mem_append_left _ failed)))
    · exact .inr (.inr (.inr empty))
  | closeSocket closing =>
    refine ⟨unsent.inv.closeSocket closing, fun nothing => ?_⟩
    rcases unsent.cause nothing with start | waiting | failed | empty
    · exact .inl start
    · exact .inr (.inl waiting)
    · exact .inr (.inr (.inl (List.mem_append_left _ failed)))
    · exact .inr (.inr (.inr empty))

/-- A session makes at most four calls for each byte of the songs and nine more. Where no call but one that fails is
possible, both sides have come to their end, or they wait for each other, because the client has sent nothing. -/
theorem song_session_ends {schedule : List SessionAction} (typed : cfg.typed ≠ [])
    (listed : cfg.songPaths.length = songCount) (ends : 0 ∈ cfg.stack.drop bufferSize)
    (run : (sessionSystem cfg).exec (.start cfg) schedule = some s) :
    schedule.length ≤ 4 * cfg.total + 9 ∧ (s.still cfg ↔ s.over ∨ s.mute) ∧
      (s.mute → .player (.send none) ∈ schedule ∨ typedRequest cfg.typed cfg.command = some []) := by
  have start : (sessionSystem cfg).Reach (.start cfg) := .start rfl
  refine ⟨?_, (SessionInv.reach (start.exec run)).still_iff typed listed ends, fun mute => ?_⟩
  · have pays s action s' (reach : (sessionSystem cfg).Reach s) (step : (sessionSystem cfg).step s action = some s') :
        s'.left cfg + (true).toNat ≤ s.left cfg + (false).toNat :=
      (sessionStep_iff.mp step).left (SessionInv.reach reach)
    have paid := start.spent_le pays run
    rw [System.spent_label (fun _ => true) run, System.spent_label (fun _ => false) run, List.countP_true,
      List.countP_false, Function.const_apply, SongSession.left_start] at paid
    omega
  · have unsent : Unsent cfg schedule s := System.exec_invariant (I := Unsent cfg)
      ⟨.start cfg, fun _ => .inl rfl⟩ (fun past s action t before step => before.step (sessionStep_iff.mp step)) run
    obtain ⟨place, -, nothing⟩ := mute
    rcases unsent.cause nothing with early | ⟨request, early⟩ | cause
    · rw [place] at early
      cases early
    · rw [place] at early
      cases early
    · exact cause

/-- A call of `send` that fails leaves both sides waiting for ever. -/
theorem song_session_ends_mute :
    ∃ s, (sessionSystem secondSongConfig).exec (.start secondSongConfig)
        [.player .fgets, .player (.send none), .player (.popen true)] = some s ∧ s.mute ∧ s.still secondSongConfig := by
  have run : (sessionSystem secondSongConfig).exec (.start secondSongConfig)
    [.player .fgets, .player (.send none), .player (.popen true)] = some _ := rfl
  have ends := song_session_ends (by decide) rfl (by simp [secondSongConfig]) run
  exact ⟨_, run, ⟨rfl, rfl, rfl⟩, ends.2.1.mpr (.inr ⟨rfl, rfl, rfl⟩)⟩

end PCProject
