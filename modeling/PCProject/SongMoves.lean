import PCProject.SongAccept

namespace PCProject
variable {maxConcurrentClients : Int} {songPaths : List String} {s s' : SongServerState} {action : SongAction}

theorem ServerSocket.close_ne_opened (socket : ServerSocket) : socket.close ≠ .opened := by
  cases socket <;> simp [close]

/-- What does not tell a thread that has been signalled from one that is asleep. -/
theorem AcceptPc.signal_eq {β : Type} (f : AcceptPc → β) (same : f .signalled = f .asleep) (pc : AcceptPc) :
    f pc.signal = f pc := by
  unfold signal
  split
  · rename_i asleep
    rw [asleep, same]
  · rfl

section Handlers
variable {h h' : SongHandler} {call : SongCall}

/-- Where a call can take a handler. -/
inductive SongCallMove (h h' : SongHandler) (call : SongCall) : Prop
  | fails (open_ : h.pc ≠ .closing) (running : h.pc ≠ .returned) (other : call ≠ .closeClient) (next : h'.pc = .closing)
  | opens {received : Bytes} {songIdx : Int} {path : String} (here : h.pc = .receiving)
      (same : call = .recv (some received)) (next : h'.pc = .opening songIdx path)
  | reads {content : Bytes} {songIdx : Int} {path : String} (here : h.pc = .opening songIdx path)
      (same : call = .fopen (some content)) (next : h'.pc = .reading)
  | sends {numRead : Nat} {ferror : Bool} (here : h.pc = .reading) (same : call = .fread numRead ferror)
      (next : h'.pc = .sending numRead)
  | sent {numRead request numSent : Nat} (here : h.pc = .sending numRead) (same : call = .send request (some numSent))
      (next : h'.pc = .reading)
  | closes (here : h.pc = .closing) (same : call = .closeClient) (next : h'.pc = .returned)

theorem SongHandler.choose_move {received : Bytes} (here : h.pc = .receiving)
    (chosen : h.choose songPaths received = some h') : SongCallMove h h' (.recv (some received)) := by
  obtain ⟨songIdx, -, chosen⟩ := Option.bind_eq_some_iff.mp chosen
  split at chosen
  · obtain ⟨path, -, chosen⟩ := Option.bind_eq_some_iff.mp chosen
    cases chosen
    exact .opens here rfl rfl
  · cases chosen
    exact .fails (by rw [here]; nofun) (by rw [here]; nofun) nofun rfl

/-- What a call of `handle_client` does to the place of the handler, case by case of the source. -/
theorem songStep_move (step : songStep songPaths h call = some h') : SongCallMove h h' call := by
  have fails (running : h.pc ≠ .closing ∧ h.pc ≠ .returned) (other : call ≠ .closeClient) (next : h'.pc = .closing) :
      SongCallMove h h' call := .fails running.1 running.2 other next
  cases atPc : h.pc with
  | receiving =>
    cases call with
    | recv received =>
      cases received with
      | none =>
        simp only [songStep, atPc] at step
        cases step
        exact fails (by simp [atPc]) nofun rfl
      | some received =>
        simp only [songStep, atPc] at step
        split at step
        · cases step
          exact fails (by simp [atPc]) nofun rfl
        · split at step
          · exact SongHandler.choose_move atPc step
          · cases step
    | _ => simp [songStep, atPc] at step
  | opening songIdx path =>
    cases call with
    | fopen content =>
      cases content with
      | none =>
        simp only [songStep, atPc] at step
        cases step
        exact fails (by simp [atPc]) nofun rfl
      | some content =>
        simp only [songStep, atPc] at step
        cases step
        exact .reads atPc rfl rfl
    | _ => simp [songStep, atPc] at step
  | reading =>
    cases call with
    | fread numRead ferror =>
      simp only [songStep, atPc] at step
      obtain ⟨fd, -, step⟩ := Option.bind_eq_some_iff.mp step
      split at step
      · -- an error, or the end of the song
        have last : h'.pc = .closing := by
          repeat' split at step
          all_goals cases step
          all_goals rfl
        exact fails (by simp [atPc]) nofun last
      · split at step
        · cases step
          exact .sends atPc rfl rfl
        · cases step
    | _ => simp [songStep, atPc] at step
  | sending expected =>
    cases call with
    | send request numSent =>
      cases numSent with
      | none =>
        simp only [songStep, atPc] at step
        split at step
        · cases step
          exact fails (by simp [atPc]) nofun rfl
        · cases step
      | some numSent =>
        simp only [songStep, atPc] at step
        split at step
        · cases step
          exact .sent atPc rfl rfl
        · cases step
    | _ => simp [songStep, atPc] at step
  | closing =>
    cases call with
    | closeClient =>
      simp only [songStep, atPc] at step
      cases step
      exact .closes atPc rfl rfl
    | _ => simp [songStep, atPc] at step
  | returned => cases call <;> simp [songStep, atPc] at step

/-- `close_client` is the only way out of `handle_client`. -/
theorem songStep_places (step : songStep songPaths h call = some h') :
    call = .closeClient ∧ h.pc = .closing ∧ h'.pc = .returned ∨
      call ≠ .closeClient ∧ h.pc ≠ .closing ∧ h.pc ≠ .returned ∧ h'.pc ≠ .returned := by
  cases songStep_move step with
  | fails open_ running other next => exact Or.inr ⟨other, open_, running, by rw [next]; nofun⟩
  | closes here same next => exact Or.inl ⟨same, here, next⟩
  | opens here same next | reads here same next | sends here same next | sent here same next =>
    refine Or.inr ?_
    rw [here, same, next]
    exact ⟨nofun, nofun, nofun, nofun⟩

/-- What a step of handler `i` can do: any system call, the `close` of `close_client`, or the
section that ends it. -/
inductive SongHandlerMove (songPaths : List String) (s : SongServerState) (i : Nat) (c : SongConnection) :
    SongServerState → Prop
  | call {h h' : SongHandler} {call : SongCall} : c.handler = some h → h.pc ≠ .returned →
      h'.pc ≠ .returned → songStep songPaths h call = some h' →
      SongHandlerMove songPaths s i c (s.setConnection i { c with
        handler := some h', late := c.late || (s.socket ≠ .opened && h.readsPaths call) })
  | closeSocket {h : SongHandler} : c.handler = some h → h.pc = .closing → c.closed = false →
      SongHandlerMove songPaths s i c (s.setConnection i { c with closed := true })
  | closeClient {h h' : SongHandler} : c.handler = some h → h.pc = .closing → h'.pc = .returned → c.closed = true →
      SongHandlerMove songPaths s i c
        { s.setConnection i { c with handler := some h', decrements := c.decrements + 1 } with
          liveHandlersCount := s.liveHandlersCount - 1, main := s.main.signal }

theorem songHandlerStep_move {i : Nat} (step : songHandlerStep songPaths s i call = some s') :
    ∃ c, s.connections[i]? = some c ∧ SongHandlerMove songPaths s i c s' := by
  obtain ⟨c, found, step⟩ := Option.bind_eq_some_iff.mp step
  obtain ⟨h, thread, step⟩ := Option.bind_eq_some_iff.mp step
  obtain ⟨h', moved, step⟩ := Option.bind_eq_some_iff.mp step
  refine ⟨c, found, ?_⟩
  rcases songStep_places moved with ⟨rfl, closing, returned⟩ | ⟨other, -, before, after⟩
  · simp only at step
    split at step
    · rename_i closed
      cases step
      exact .closeClient thread closing returned closed
    · cases step
  · cases call with
    | closeClient => exact absurd rfl other
    | _ =>
      cases step
      exact .call thread before after moved

theorem songCloseSocket_move (songPaths : List String) {i : Nat} (step : songCloseSocket s i = some s') :
    ∃ c, s.connections[i]? = some c ∧ SongHandlerMove songPaths s i c s' := by
  obtain ⟨c, found, step⟩ := Option.bind_eq_some_iff.mp step
  obtain ⟨h, thread, step⟩ := Option.bind_eq_some_iff.mp step
  split at step
  · rename_i here
    cases step
    exact ⟨c, found, .closeSocket thread here.1 (by simpa using here.2)⟩
  · cases step

end Handlers

/-- What a step of main can do. -/
inductive SongMainMove (maxConcurrentClients : Int) (s : SongServerState) : Bool → Bytes → SongServerState → Prop
  | setUp {call stack} : s.main = .settingUp call → s.socket.allows call = true →
      SongMainMove maxConcurrentClients s true stack
        { s with socket := s.socket.after call, main := call.next.elim .clearingStop .settingUp }
  | setUpFails {call stack} : s.main = .settingUp call →
      SongMainMove maxConcurrentClients s false stack { s with main := .exited }
  | clearStop {success stack} : s.main = .clearingStop →
      SongMainMove maxConcurrentClients s success stack { s with stop := false, main := .loop }
  | enterLoop {success stack} : s.main = .loop → s.stop = false →
      SongMainMove maxConcurrentClients s success stack { s with main := .testing }
  | leaveLoop {success stack} : s.main = .loop → s.stop = true →
      SongMainMove maxConcurrentClients s success stack { s with main := .stopping }
  | waits {success stack} : s.main = .testing ∨ s.main = .signalled → maxConcurrentClients ≤ s.liveHandlersCount →
      SongMainMove maxConcurrentClients s success stack { s with main := .asleep }
  | proceeds {success stack} : s.main = .testing ∨ s.main = .signalled →
      s.liveHandlersCount < maxConcurrentClients →
      SongMainMove maxConcurrentClients s success stack { s with main := .allocating }
  | allocates {stack} : s.main = .allocating →
      SongMainMove maxConcurrentClients s true stack { s with main := .accepting }
  | allocateFails {stack} : s.main = .allocating →
      SongMainMove maxConcurrentClients s false stack { s with main := .exited }
  | accepts {stack} : s.main = .accepting → s.canAccept = true → SongMainMove maxConcurrentClients s true stack
      { s with connections := s.connections ++ [{}], main := .accepted (some s.connections.length) }
  | acceptFails {stack} : s.main = .accepting →
      SongMainMove maxConcurrentClients s false stack { s with main := .accepted none }
  | stopsUnaccepted {success stack} : s.main = .accepted none → s.stop = true →
      SongMainMove maxConcurrentClients s success stack { s with main := .stopping }
  | retries {success stack} : s.main = .accepted none → s.stop = false →
      SongMainMove maxConcurrentClients s success stack { s with main := .loop }
  | refuses {i c success stack} : s.main = .accepted (some i) → s.stop = true → s.connections[i]? = some c →
      SongMainMove maxConcurrentClients s success stack
        { s.setConnection i { c with closed := true } with main := .stopping }
  | takesOn {i c success stack} : s.main = .accepted (some i) → s.stop = false → s.connections[i]? = some c →
      SongMainMove maxConcurrentClients s success stack { s with main := .counting i }
  | counts {i c success stack} : s.main = .counting i → s.connections[i]? = some c →
      SongMainMove maxConcurrentClients s success stack
        { s.setConnection i { c with counted := true } with
          liveHandlersCount := s.liveHandlersCount + 1, main := .creating i }
  | creates {i c stack} : s.main = .creating i → s.connections[i]? = some c → bufferSize ≤ stack.length →
      SongMainMove maxConcurrentClients s true stack
        { s.setConnection i { c with handler := some (.start stack) } with main := .loop }
  | createFails {i c stack} : s.main = .creating i → s.connections[i]? = some c →
      SongMainMove maxConcurrentClients s false stack { s with main := .loop }
  | closesServer {success stack} : s.main = .stopping →
      SongMainMove maxConcurrentClients s success stack { s with socket := s.socket.close, main := .freeing }
  | freesPaths {success stack} : s.main = .freeing →
      SongMainMove maxConcurrentClients s success stack { s with pathsFreed := true, main := .returning }
  | returns {success stack} : s.main = .returning →
      SongMainMove maxConcurrentClients s success stack { s with main := .exited }

theorem songMainStep_move {success : Bool} {stack : Bytes}
    (step : songMainStep maxConcurrentClients s success stack = some s') :
    SongMainMove maxConcurrentClients s success stack s' := by
  unfold songMainStep at step
  cases atMain : s.main with
  | settingUp call =>
    simp only [atMain] at step
    cases success with
    | false => cases step; exact .setUpFails atMain
    | true =>
      rw [if_pos rfl] at step
      split at step
      · rename_i allowed
        cases step
        exact .setUp atMain allowed
      · cases step
  | clearingStop => simp only [atMain] at step; cases step; exact .clearStop atMain
  | loop =>
    simp only [atMain] at step
    by_cases stopped : s.stop = true
    · rw [if_pos stopped] at step
      cases step
      exact .leaveLoop atMain stopped
    · rw [if_neg stopped] at step
      cases step
      exact .enterLoop atMain (Bool.eq_false_of_not_eq_true stopped)
  | testing | signalled =>
    simp only [atMain] at step
    by_cases full : maxConcurrentClients ≤ s.liveHandlersCount
    · rw [if_pos full] at step
      cases step
      exact .waits (by simp [atMain]) full
    · rw [if_neg full] at step
      cases step
      exact .proceeds (by simp [atMain]) (Int.not_le.mp full)
  | asleep => simp only [atMain] at step; cases step
  | allocating =>
    simp only [atMain] at step
    cases success with
    | false => cases step; exact .allocateFails atMain
    | true => cases step; exact .allocates atMain
  | accepting =>
    simp only [atMain] at step
    cases success with
    | false => cases step; exact .acceptFails atMain
    | true =>
      rw [if_pos rfl] at step
      split at step
      · rename_i possible
        cases step
        exact .accepts atMain possible
      · cases step
  | accepted client =>
    cases client with
    | none =>
      simp only [atMain] at step
      by_cases stopped : s.stop = true
      · rw [if_pos stopped] at step
        cases step
        exact .stopsUnaccepted atMain stopped
      · rw [if_neg stopped] at step
        cases step
        exact .retries atMain (Bool.eq_false_of_not_eq_true stopped)
    | some i =>
      simp only [atMain] at step
      obtain ⟨c, found, step⟩ := Option.bind_eq_some_iff.mp step
      by_cases stopped : s.stop = true
      · rw [if_pos stopped] at step
        cases step
        exact .refuses atMain stopped found
      · rw [if_neg stopped] at step
        cases step
        exact .takesOn atMain (Bool.eq_false_of_not_eq_true stopped) found
  | counting i =>
    simp only [atMain] at step
    obtain ⟨c, found, step⟩ := Option.bind_eq_some_iff.mp step
    cases step
    exact .counts atMain found
  | creating i =>
    simp only [atMain] at step
    obtain ⟨c, found, step⟩ := Option.bind_eq_some_iff.mp step
    cases success with
    | false => cases step; exact .createFails atMain found
    | true =>
      rw [if_pos rfl] at step
      split at step
      · rename_i room
        cases step
        exact .creates atMain found room
      · cases step
  | stopping => simp only [atMain] at step; cases step; exact .closesServer atMain
  | freeing => simp only [atMain] at step; cases step; exact .freesPaths atMain
  | returning => simp only [atMain] at step; cases step; exact .returns atMain
  | exited => simp only [atMain] at step; cases step

/-- What a step of the server can do. -/
inductive SongServerMove (maxConcurrentClients : Int) (songPaths : List String) (s : SongServerState) :
    SongAction → SongServerState → Prop
  | main {success stack s'} : SongMainMove maxConcurrentClients s success stack s' →
      SongServerMove maxConcurrentClients songPaths s (.main success stack) s'
  | wakeup : s.main = .asleep →
      SongServerMove maxConcurrentClients songPaths s .wakeup { s with main := .signalled }
  | handler {i call c s'} : s.connections[i]? = some c → SongHandlerMove songPaths s i c s' →
      SongServerMove maxConcurrentClients songPaths s (.handler i call) s'
  | closeSocket {i c s'} : s.connections[i]? = some c → SongHandlerMove songPaths s i c s' →
      SongServerMove maxConcurrentClients songPaths s (.closeSocket i) s'
  | interrupt :
      SongServerMove maxConcurrentClients songPaths s .interrupt { s with stop := true, socket := s.socket.close }
  | reuse {i c h file} : s.connections[i]? = some c → c.handler = some h → c.late = true → s.socket = .closedAgain →
      SongServerMove maxConcurrentClients songPaths s (.reuse i file)
        (s.setConnection i { c with handler := some { h with fd := some file } })

theorem songServerStep_move (step : songServerStep maxConcurrentClients songPaths s action = some s') :
    SongServerMove maxConcurrentClients songPaths s action s' := by
  unfold songServerStep at step
  split at step
  · cases step
  cases action with
  | main success stack => exact .main (songMainStep_move step)
  | wakeup =>
    simp only at step
    split at step
    · rename_i asleep
      cases step
      exact .wakeup asleep
    · cases step
  | handler i call =>
    obtain ⟨c, found, move⟩ := songHandlerStep_move step
    exact .handler found move
  | closeSocket i =>
    obtain ⟨c, found, move⟩ := songCloseSocket_move songPaths step
    exact .closeSocket found move
  | interrupt => cases step; exact .interrupt
  | reuse i file =>
    obtain ⟨c, found, step⟩ := Option.bind_eq_some_iff.mp step
    obtain ⟨h, thread, step⟩ := Option.bind_eq_some_iff.mp step
    split at step
    · rename_i possible
      cases step
      exact .reuse found thread possible.2.1 possible.1
    · cases step

end PCProject
