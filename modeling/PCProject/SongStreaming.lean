import PCProject.SongServer

namespace PCProject

/-- The answers of a system call after which `handle_client` gives up. -/
def SongCall.fails (stack : Bytes) : SongCall → Bool
  | .recv none => true
  | .recv (some received) =>
    received.isEmpty || !(atoi (overwrite stack received)).any fun songIdx : Int => 1 ≤ songIdx ∧ songIdx ≤ songCount
  | .fopen content => content.isNone
  | .fread numRead ferror => numRead = 0 && ferror
  | .send _ numSent => numSent.isNone
  | .closeClient => false

/-- A call of `send`, if it is one, takes everything that it is given. -/
def SongCall.takesAll : SongCall → Bool
  | .send numRead numSent => numSent = some numRead
  | _ => true

/-- What `send` has accepted of the first bytes of the file: all of them if every call took
everything, otherwise fewer. -/
structure Streamed (past : List SongCall) (h : SongHandler) (upTo : Nat) : Prop where
  bound : h.accepted.length ≤ upTo
  full : (∀ call ∈ past, call.takesAll = true) → ∀ fd, h.fd = some fd → h.accepted = fd.content.take upTo
  short : ∀ call ∈ past, call.takesAll = false → h.accepted.length < upTo

/-- The invariant of a handler after some calls, by the place where it is. -/
def StreamInv (stack : Bytes) (past : List SongCall) (h : SongHandler) : Prop :=
  match h.pc with
  | .receiving => past = [] ∧ h = .start stack
  | .opening _ _ => (∀ call ∈ past, call.fails stack = false) ∧ .streamed ∉ h.log ∧ h.fd = none ∧
      h.accepted = [] ∧ ∀ call ∈ past, call.takesAll = true
  | .reading => (∀ call ∈ past, call.fails stack = false) ∧ .streamed ∉ h.log ∧
      ∃ fd, h.fd = some fd ∧ fd.position ≤ fd.content.length ∧ Streamed past h fd.position
  | .sending numRead => (∀ call ∈ past, call.fails stack = false) ∧ .streamed ∉ h.log ∧
      ∃ content before, h.fd = some ⟨content, before + numRead⟩ ∧ before + numRead ≤ content.length ∧
        h.stack.take numRead = (content.drop before).take numRead ∧ Streamed past h before
  | .closing | .returned =>
    (∃ call ∈ past, call.fails stack = true) ∧ .streamed ∉ h.log ∨
    (∀ call ∈ past, call.fails stack = false) ∧ .streamed ∈ h.log ∧
      ∃ fd, h.fd = some fd ∧ Streamed past h fd.content.length

variable {songPaths : List String} {stack : Bytes} {past : List SongCall} {h h' : SongHandler} {call : SongCall}

theorem Streamed.none (empty : h.accepted = []) (all : ∀ call ∈ past, call.takesAll = true) : Streamed past h 0 where
  bound := by simp [empty]
  full _ _ _ := by simp [empty]
  short call member fewer := by simp [all call member] at fewer

/-- A call that is not `send` and leaves the accepted bytes and the file alone. -/
theorem Streamed.other {upTo : Nat} (sent : Streamed past h upTo) (all : call.takesAll = true)
    (accepted : h'.accepted = h.accepted)
    (same : ∀ fd', h'.fd = some fd' → ∃ fd, h.fd = some fd ∧ fd.content = fd'.content) :
    Streamed (past ++ [call]) h' upTo where
  bound := by rw [accepted]; exact sent.bound
  full every fd' opened := by
    obtain ⟨fd, before, content⟩ := same fd' opened
    rw [accepted, ← content]
    exact sent.full (fun c member => every c (List.mem_append_left _ member)) fd before
  short c member fewer := by
    rw [accepted]
    rcases List.mem_append.mp member with earlier | last
    · exact sent.short c earlier fewer
    · rw [List.mem_singleton.mp last, all] at fewer
      cases fewer

/-- A call of `send` that takes a part of the next bytes of the file. -/
theorem Streamed.send {before numRead numSent : Nat} {content : Bytes} (sent : Streamed past h before)
    (opened : h.fd = some ⟨content, before + numRead⟩)
    (chunk : h.stack.take numRead = (content.drop before).take numRead) (part : numSent ≤ numRead) :
    Streamed (past ++ [.send numRead (some numSent)])
      { h with pc := .reading, accepted := h.accepted ++ h.stack.take numSent } (before + numRead) where
  bound := by
    have bound := sent.bound
    simp only [List.length_append, List.length_take]
    omega
  full every fd atFd := by
    have same : (⟨content, before + numRead⟩ : FileStream) = fd := Option.some.inj (opened.symm.trans atFd)
    have whole : numSent = numRead := by
      have last := every (.send numRead (some numSent)) (by simp)
      simpa [SongCall.takesAll] using last
    have earlier := sent.full (fun c member => every c (List.mem_append_left _ member)) _ opened
    rw [← same, whole, chunk, earlier, List.take_add]
  short c member fewer := by
    have bound := sent.bound
    simp only [List.length_append, List.length_take]
    rcases List.mem_append.mp member with earlier | last
    · have less := sent.short c earlier fewer
      omega
    · rw [List.mem_singleton.mp last] at fewer
      have less : numSent ≠ numRead := by simpa [SongCall.takesAll] using fewer
      omega

/-- A call after which `handle_client` gives up. -/
theorem StreamInv.fail (failed : call.fails stack = true) (log : .streamed ∉ h.log) {line : SongLog}
    (other : line ≠ .streamed) : StreamInv stack (past ++ [call]) (h.fail line) := by
  refine Or.inl ⟨⟨call, by simp, failed⟩, ?_⟩
  simp [SongHandler.fail, log, other.symm]

/-- The calls so far with one more that does not make `handle_client` give up. -/
theorem no_fails_append (fines : ∀ c ∈ past, c.fails stack = false) (fine : call.fails stack = false) :
    ∀ c ∈ past ++ [call], c.fails stack = false := by
  intro c member
  rcases List.mem_append.mp member with earlier | last
  · exact fines c earlier
  · rw [List.mem_singleton.mp last, fine]

theorem StreamInv.choose {received : Bytes} (filled : received.isEmpty = false)
    (chosen : (SongHandler.start stack).choose songPaths received = some h') :
    StreamInv stack [.recv (some received)] h' := by
  obtain ⟨songIdx, read, chosen⟩ := Option.bind_eq_some_iff.mp chosen
  have atStart : atoi (overwrite stack received) = some songIdx := read
  split at chosen
  · rename_i valid
    obtain ⟨path, -, chosen⟩ := Option.bind_eq_some_iff.mp chosen
    cases chosen
    refine ⟨?_, by simp [SongHandler.start], rfl, rfl, ?_⟩
    · simp [SongCall.fails, filled, atStart, valid]
    · simp [SongCall.takesAll]
  · rename_i invalid
    cases chosen
    rw [← List.nil_append [SongCall.recv (some received)]]
    refine StreamInv.fail ?_ (by simp [SongHandler.start]) (by simp)
    simp only [SongCall.fails, filled, atStart, Option.any_some, decide_eq_false invalid, Bool.not_false, Bool.or_true]

/-- The first message of the client. -/
theorem StreamInv.receive (inv : StreamInv stack past h) (atPc : h.pc = .receiving)
    (step : songStep songPaths h call = some h') : StreamInv stack (past ++ [call]) h' := by
  simp only [StreamInv, atPc] at inv
  obtain ⟨rfl, rfl⟩ := inv
  cases call with
  | recv received =>
    cases received with
    | none =>
      cases step
      exact StreamInv.fail rfl (by simp [SongHandler.start]) (by simp)
    | some received =>
      simp only [songStep, SongHandler.start] at step
      split at step
      · rename_i empty
        cases step
        exact StreamInv.fail (by simp [SongCall.fails, empty]) (by simp) (by simp)
      · rename_i filled
        split at step
        · exact StreamInv.choose (by simpa using filled) step
        · cases step
  | _ => cases step

theorem StreamInv.openFile (inv : StreamInv stack past h) {songIdx : Int} {path : String}
    (atPc : h.pc = .opening songIdx path)
    (step : songStep songPaths h call = some h') : StreamInv stack (past ++ [call]) h' := by
  simp only [StreamInv, atPc] at inv
  obtain ⟨fines, log, -, accepted, all⟩ := inv
  cases call with
  | fopen content =>
    cases content with
    | none =>
      simp only [songStep, atPc] at step
      cases step
      exact StreamInv.fail rfl log (by simp)
    | some content =>
      simp only [songStep, atPc] at step
      cases step
      refine ⟨no_fails_append fines rfl, log, _, rfl, Nat.zero_le _, ?_⟩
      refine Streamed.none accepted fun c member => ?_
      rcases List.mem_append.mp member with earlier | last
      · exact all c earlier
      · rw [List.mem_singleton.mp last]
        rfl
  | _ => simp [songStep, atPc] at step

/-- The loop reads the next bytes of the file, or finds its end. -/
theorem StreamInv.read (inv : StreamInv stack past h) (atPc : h.pc = .reading)
    (step : songStep songPaths h call = some h') : StreamInv stack (past ++ [call]) h' := by
  simp only [StreamInv, atPc] at inv
  obtain ⟨fines, log, ⟨content, position⟩, opened, within, sent⟩ := inv
  cases call with
  | fread numRead ferror =>
    simp only [songStep, atPc, opened, Option.bind_eq_bind, Option.bind_some] at step
    split at step
    · rename_i nothing
      split at step
      · rename_i failed
        cases step
        exact StreamInv.fail (by simp [SongCall.fails, nothing, failed]) log (by simp)
      · rename_i fine
        split at step
        · rename_i ended
          cases step
          refine Or.inr ⟨no_fails_append fines (by simp [SongCall.fails, fine]), ?_, _, opened, ?_⟩
          · simp [SongHandler.fail]
          · have whole : position = content.length := Nat.le_antisymm within ended
            simp only [← whole]
            exact sent.other rfl rfl fun fd atFd => ⟨fd, atFd, rfl⟩
        · cases step
    · rename_i something
      split at step
      · rename_i possible
        cases step
        refine ⟨no_fails_append fines (by simp [SongCall.fails, something]), log, content, position, rfl,
          possible.2, ?_, ?_⟩
        · rw [take_overwrite _ _ (by simp only [List.length_take, List.length_drop]; omega), List.take_take,
            Nat.min_self]
        · refine sent.other rfl rfl fun fd atFd => ⟨_, opened, ?_⟩
          cases atFd
          rfl
      · cases step
  | _ => simp [songStep, atPc] at step

/-- The loop hands the bytes it has read to `send`. -/
theorem StreamInv.send (inv : StreamInv stack past h) {numRead : Nat} (atPc : h.pc = .sending numRead)
    (step : songStep songPaths h call = some h') : StreamInv stack (past ++ [call]) h' := by
  simp only [StreamInv, atPc] at inv
  obtain ⟨fines, log, content, before, opened, within, chunk, sent⟩ := inv
  cases call with
  | send request numSent =>
    cases numSent with
    | none =>
      simp only [songStep, atPc] at step
      split at step
      · cases step
        exact StreamInv.fail rfl log (by simp)
      · cases step
    | some numSent =>
      simp only [songStep, atPc] at step
      split at step
      · rename_i possible
        obtain ⟨rfl, -, part⟩ := possible
        cases step
        exact ⟨no_fails_append fines rfl, log, _, opened, within, sent.send opened chunk part⟩
      · cases step
  | _ => simp [songStep, atPc] at step

theorem StreamInv.close (inv : StreamInv stack past h) (atPc : h.pc = .closing)
    (step : songStep songPaths h call = some h') : StreamInv stack (past ++ [call]) h' := by
  simp only [StreamInv, atPc] at inv
  cases call with
  | closeClient =>
    simp only [songStep, atPc] at step
    cases step
    rcases inv with ⟨⟨c, member, failed⟩, log⟩ | ⟨fines, log, fd, opened, sent⟩
    · exact Or.inl ⟨⟨c, List.mem_append_left _ member, failed⟩, by simpa using log⟩
    · exact Or.inr ⟨no_fails_append fines rfl, by simp [log], fd, opened,
        sent.other rfl rfl fun fd atFd => ⟨fd, atFd, rfl⟩⟩
  | _ => simp [songStep, atPc] at step

theorem StreamInv.step (inv : StreamInv stack past h) (step : songStep songPaths h call = some h') :
    StreamInv stack (past ++ [call]) h' := by
  cases atPc : h.pc with
  | receiving => exact inv.receive atPc step
  | opening songIdx path => exact inv.openFile atPc step
  | reading => exact inv.read atPc step
  | sending numRead => exact inv.send atPc step
  | closing => exact inv.close atPc step
  | returned => cases call <;> simp [songStep, atPc] at step

/-- A connection whose handler has come to its end: if it reports success, then `send` has
accepted exactly the bytes of the file, except where some call of `send` took less than it
was given. -/
theorem song_streaming_complete_iff {calls : List SongCall}
    (run : (songSystem songPaths).exec (.start stack) calls = some h) (ended : h.pc = .returned) :
    (.streamed ∈ h.log → ∃ fd, h.fd = some fd ∧ h.accepted = fd.content) ↔
      (∃ call ∈ calls, call.fails stack = true) ∨ ∀ call ∈ calls, call.takesAll = true := by
  have start : StreamInv stack [] (.start stack) := ⟨rfl, rfl⟩
  have inv : StreamInv stack calls h := System.exec_invariant start (fun _ _ _ _ inv step => inv.step step) run
  unfold StreamInv at inv
  simp only [ended] at inv
  rcases inv with ⟨failed, log⟩ | ⟨fines, log, fd, opened, sent⟩
  · exact iff_of_true (fun success => absurd success log) (Or.inl failed)
  · constructor
    · intro complete
      obtain ⟨fd', opened', same⟩ := complete log
      rw [opened] at opened'
      cases opened'
      refine Or.inr fun call member => ?_
      by_contra fewer
      have short := sent.short call member (by simpa using fewer)
      rw [same] at short
      exact Nat.lt_irrefl _ short
    · intro condition _
      refine ⟨fd, opened, ?_⟩
      rcases condition with ⟨call, member, failed⟩ | all
      · rw [fines call member] at failed
        cases failed
      · rw [sent.full all fd opened, List.take_length]

/-- A client asks for a file of two bytes; `numSent` of them are accepted in one call. -/
def twoByteCalls (numSent : Nat) : List SongCall :=
  [.recv (some (ascii "1\n")), .fopen (some [7, 8]), .fread 2 false, .send 2 (some numSent), .fread 0 false,
    .closeClient]

theorem song_streaming_complete_iff_two_bytes :
    ∃ h, (songSystem ["a.mp3", "b.mp3", "c.mp3"]).exec (.start (List.replicate bufferSize 0)) (twoByteCalls 2) =
        some h ∧
      ∃ fd, h.fd = some fd ∧ h.accepted = fd.content := by
  have run : (songSystem ["a.mp3", "b.mp3", "c.mp3"]).exec (.start (List.replicate bufferSize 0)) (twoByteCalls 2) =
    some _ :=
    rfl
  exact ⟨_, run, (song_streaming_complete_iff run rfl).mpr (Or.inr (by decide)) (by decide)⟩

/-- A short count of `send` loses the second byte and success is reported all the same. -/
theorem song_streaming_loses_a_byte :
    ∃ h, (songSystem ["a.mp3", "b.mp3", "c.mp3"]).exec (.start (List.replicate bufferSize 0)) (twoByteCalls 1) =
        some h ∧
      .streamed ∈ h.log ∧ h.fd = some ⟨[7, 8], 2⟩ ∧ h.accepted = [7] :=
  ⟨_, rfl, by decide, rfl, rfl⟩

end PCProject
