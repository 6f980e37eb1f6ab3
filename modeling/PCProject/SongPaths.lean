import PCProject.SongSlots

namespace PCProject
variable {maxConcurrentClients : Int} {songPaths : List String} {s s' : SongServerState} {action : SongAction}

/-- A handler that is not past its `fopen` and the message about its failure may still read `song_paths`. -/
def SongPc.beforePaths : SongPc → Bool
  | .receiving | .opening _ _ => true
  | _ => false

def SongServerState.readsPaths (s : SongServerState) : SongAction → Bool
  | .handler i call => (s.connections[i]?.bind SongConnection.handler).any fun h => h.readsPaths call
  | _ => false

/-- Every handler that has been started is past its `fopen`, and past the message if that has failed. -/
def SongServerState.pathsUnused (s : SongServerState) : Bool :=
  s.connections.all fun c => c.handler.all fun h => !h.pc.beforePaths

/-- Main does not free the paths before that. -/
def freesUnused (s : SongServerState) : SongAction → Bool
  | .main _ _ => s.main ≠ .freeing || s.pathsUnused
  | _ => true

theorem SongHandler.beforePaths_of_reads {h : SongHandler} {call : SongCall} (reads : h.readsPaths call = true) :
    h.pc.beforePaths = true := by
  unfold readsPaths at reads
  split at reads
  · rename_i atPc
    rw [atPc]
    rfl
  · rename_i atPc
    rw [atPc]
    rfl
  · cases reads

/-- A handler does not come back to `song_paths`. -/
theorem songStep_pastPaths {h h' : SongHandler} {call : SongCall} (step : songStep songPaths h call = some h')
    (past : h.pc.beforePaths = false) : h'.pc.beforePaths = false := by
  cases songStep_move step with
  | opens here | reads here =>
    rw [here] at past
    cases past
  | fails _ _ _ next | sends _ _ next | sent _ _ next | closes _ _ next =>
    rw [next]
    rfl

/-- Once the paths are freed main is about to return, and no handler uses them. -/
structure PathsInv (s : SongServerState) : Prop where
  main : s.pathsFreed = true → s.main = .returning ∨ s.main = .exited
  past : s.pathsFreed = true → ∀ c ∈ s.connections, ∀ h, c.handler = some h → h.pc.beforePaths = false

theorem SongServerState.pathsUnused_iff :
    s.pathsUnused = true ↔ ∀ c ∈ s.connections, ∀ h, c.handler = some h → h.pc.beforePaths = false := by
  simp [pathsUnused, Option.all_eq_true]

theorem PathsInv.handler {i : Nat} {c : SongConnection} (inv : PathsInv s) (found : s.connections[i]? = some c)
    (move : SongHandlerMove songPaths s i c s') : PathsInv s' := by
  have set {c' : SongConnection} (past : s.pathsFreed = true → ∀ h, c'.handler = some h → h.pc.beforePaths = false)
      (freed : s.pathsFreed = true) :
      ∀ d ∈ s.connections.set i c', ∀ h, d.handler = some h → h.pc.beforePaths = false := by
    intro d member
    rcases List.mem_or_eq_of_mem_set member with old | new
    · exact inv.past freed d old
    · exact new ▸ past freed
  have mine (freed : s.pathsFreed = true) := inv.past freed c (List.mem_of_getElem? found)
  cases move with
  | call thread _ _ step =>
    refine ⟨inv.main, set fun freed h same => ?_⟩
    cases same
    exact songStep_pastPaths step (mine freed _ thread)
  | closeSocket => exact ⟨inv.main, set mine⟩
  | closeClient _ _ returned =>
    refine ⟨fun freed => ?_, set fun _ h same => ?_⟩
    · rcases inv.main freed with here | here <;> (dsimp only; rw [here]; simp [AcceptPc.signal])
    · cases same
      rw [returned]
      rfl

theorem PathsInv.move (inv : PathsInv s) (unused : freesUnused s action = true)
    (move : SongServerMove maxConcurrentClients songPaths s action s') : PathsInv s' := by
  have ⟨main, past⟩ := inv
  cases move with
  | main move =>
    by_cases freed : s.pathsFreed = true
    · -- main is behind the other steps
      rcases main freed with here | here
      · cases move with
        | returns => exact ⟨fun _ => Or.inr rfl, past⟩
        | _ => simp_all
      · cases move <;> simp_all
    · cases move with
      | freesPaths here =>
        have all : s.pathsUnused = true := by simpa [freesUnused, here] using unused
        exact ⟨fun _ => Or.inl rfl, fun _ => SongServerState.pathsUnused_iff.mp all⟩
      | _ => exact ⟨fun freed' => absurd freed' freed, fun freed' => absurd freed' freed⟩
  | wakeup asleep => exact ⟨fun freed => absurd (main freed) (by rw [asleep]; exact nofun), past⟩
  | handler found move => exact inv.handler found move
  | closeSocket found move => exact inv.handler found move
  | interrupt => exact ⟨main, past⟩
  | @reuse i c h file found thread =>
    refine ⟨main, fun freed d member h' same => ?_⟩
    rcases List.mem_or_eq_of_mem_set member with old | new
    · exact past freed d old h' same
    · subst new
      cases same
      exact past freed c (List.mem_of_getElem? found) h thread

theorem song_paths_inv (via : (songServerSystem maxConcurrentClients songPaths).ReachVia freesUnused s) :
    PathsInv s := by
  refine via.invariant (I := PathsInv) ?_ fun s action t inv unused step => inv.move unused (songServerStep_move step)
  intro s initial
  cases initial
  exact ⟨nofun, nofun⟩

/-- A handler before the end of its `fopen` can read the paths, if it is asked for the first song. -/
theorem SongHandler.exists_reads {h : SongHandler} (before : h.pc.beforePaths = true)
    (songs : songPaths.length = songCount) :
    ∃ call h', call ≠ .closeClient ∧ h.readsPaths call = true ∧ songStep songPaths h call = some h' := by
  cases here : h.pc with
  | receiving =>
    have one : atoi (overwrite h.stack [49, 0]) = some 1 := rfl
    have first : 0 < songPaths.length := by rw [songs]; decide
    obtain ⟨h', chosen⟩ : ∃ h', h.choose songPaths [49, 0] = some h' := by simp [choose, one, songCount, first]
    refine ⟨.recv (some [49, 0]), h', by simp, ?_, ?_⟩
    · simp [readsPaths, here, one, songCount]
    · simpa [songStep, here, bufferSize] using chosen
  | opening songIdx path =>
    refine ⟨.fopen none, h.fail (.openFailed songIdx path), by simp, ?_, ?_⟩
    · simp [readsPaths, here]
    · simp [songStep, here]
  | _ => rw [here] at before; cases before

/-- If main frees the paths before a handler is past its `fopen`, the handler can read them afterwards. -/
theorem song_paths_read_freed (here : s.main = .freeing) (used : s.pathsUnused = false)
    (songs : songPaths.length = songCount) :
    ∃ t action u, (songServerSystem maxConcurrentClients songPaths).exec s [.main true []] = some t ∧
      t.pathsFreed = true ∧ t.readsPaths action = true ∧
      songServerStep maxConcurrentClients songPaths t action = some u := by
  have freed : songServerStep maxConcurrentClients songPaths s (.main true []) =
      some { s with pathsFreed := true, main := .returning } := by simp [songServerStep, songMainStep, here]
  obtain ⟨c, member, h, thread, before⟩ : ∃ c ∈ s.connections, ∃ h, c.handler = some h ∧ h.pc.beforePaths = true := by
    by_contra none
    have unused := SongServerState.pathsUnused_iff.mpr fun c member h thread =>
      Bool.eq_false_of_not_eq_true fun before => none ⟨c, member, h, thread, before⟩
    cases unused.symm.trans used
  obtain ⟨i, found⟩ := List.mem_iff_getElem?.mp member
  obtain ⟨call, h', open_, reads, step⟩ := SongHandler.exists_reads before songs
  let late := c.late || (s.socket ≠ .opened && h.readsPaths call)
  refine ⟨_, .handler i call,
    { s.setConnection i { c with handler := some h', late := late } with pathsFreed := true, main := .returning },
    Option.bind_eq_some_iff.mpr ⟨_, freed, rfl⟩, rfl, ?_, ?_⟩
  · simp [SongServerState.readsPaths, found, thread, reads]
  · cases call with
    | closeClient => exact absurd rfl open_
    | _ => simp [songServerStep, songHandlerStep, found, thread, step, SongServerState.setConnection, late]

/-- The paths outlive their readers in the runs in which main frees them only when every handler that has been
started is past its `fopen` and the message about its failure. Where it frees them earlier, a handler can read them
afterwards. -/
theorem song_paths_outlive_readers :
    (∀ s action, (songServerSystem maxConcurrentClients songPaths).ReachVia freesUnused s →
      s.readsPaths action = true → s.pathsFreed = false) ∧
    (songPaths.length = songCount → ∀ s : SongServerState, s.main = .freeing → s.pathsUnused = false →
      ∃ t action u, (songServerSystem maxConcurrentClients songPaths).exec s [.main true []] = some t ∧
        t.pathsFreed = true ∧ t.readsPaths action = true ∧
        songServerStep maxConcurrentClients songPaths t action = some u) := by
  refine ⟨fun s action via reads => ?_, fun songs s here used => song_paths_read_freed here used songs⟩
  unfold SongServerState.readsPaths at reads
  cases action with
  | handler i call =>
    obtain ⟨h, found, reads⟩ := (Option.any_eq_true _ _).mp reads
    obtain ⟨c, at_, thread⟩ := Option.bind_eq_some_iff.mp found
    have before := SongHandler.beforePaths_of_reads reads
    by_contra freed
    have past := (song_paths_inv via).past (Bool.eq_true_of_not_eq_false freed) c (List.mem_of_getElem? at_) h thread
    cases before.symm.trans past
  | _ => cases reads

def threeSongs : List String := ["a.mp3", "b.mp3", "c.mp3"]

set_option maxRecDepth 8000 in
/-- Main leaves its loop and frees the paths while a handler waits for its request. -/
theorem song_paths_read_by_late_request :
    ∃ s s', (songServerSystem 16 threeSongs).exec .start (acceptSong (List.replicate bufferSize 0) ++
        .interrupt :: List.replicate 3 (.main true [])) = some s ∧
      s.pathsFreed = true ∧ s.readsPaths (.handler 0 (.recv (some [49, 0]))) = true ∧
      songServerStep 16 threeSongs s (.handler 0 (.recv (some [49, 0]))) = some s' :=
  ⟨_, _, rfl, rfl, rfl, rfl⟩

set_option maxRecDepth 8000 in
theorem song_paths_outlive_readers_request :
    ∃ s, (songServerSystem 16 threeSongs).execVia freesUnused .start (acceptSong (List.replicate bufferSize 0)) =
      some s ∧
      s.readsPaths (.handler 0 (.recv (some [49, 0]))) = true ∧ s.pathsFreed = false := by
  have run : (songServerSystem 16 threeSongs).execVia freesUnused .start (acceptSong (List.replicate bufferSize 0)) =
    some _ := rfl
  have outlive := song_paths_outlive_readers.1 _ (.handler 0 (.recv (some [49, 0])))
    (System.ReachVia.exec (.start rfl) run) rfl
  exact ⟨_, rfl, rfl, outlive⟩

end PCProject
