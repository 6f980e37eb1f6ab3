import PCProject.SongSession
import PCProject.SongStartUp

namespace PCProject

/-- main of the song server has come to its loop: it has set its options from the arguments and loaded the paths of
the songs in its directory, and these are the strings that the handler of a session finds. -/
structure Serving (argv : List Bytes) (opendir : Bytes → Option (List Bytes)) (cfg : SessionConfig)
    (options : SongOptions) (entries : List Bytes) : Prop where
  sets : setOptions argv = some options
  listing : opendir options.musicDirectory = some entries
  loads : ∃ heap array answers text loaded, PathsFresh heap array answers ∧
    getSongPathsFromDir options.musicDirectory (opendir options.musicDirectory) array answers heap =
      .ok (text, loaded) ∧
    cfg.songPaths.length = songCount ∧
    ∀ i path, cfg.songPaths[i]? = some path → songPathAt loaded array i = .ok (ascii path)

variable {argv entries : List Bytes} {opendir : Bytes → Option (List Bytes)} {options : SongOptions}
  {cfg : SessionConfig} {s : SongSession}

/-- `set_options` reads no more than the arguments. -/
theorem setOptions_eq (argv : List Bytes) :
    ∃ port, setOptions argv = some ⟨port, argv[2]?.getD (ascii "./media")⟩ := by
  unfold setOptions
  cases argv[1]? with
  | none => exact ⟨3000, rfl⟩
  | some argument =>
    obtain ⟨port, read⟩ := atoi_string (List.mem_append_right argument (List.mem_singleton_self 0))
    exact ⟨port, by rw [Option.elim_some, read]; rfl⟩

/-- The strings of a session are the paths of the first songs. -/
theorem Serving.path (serving : Serving argv opendir cfg options entries) (clean : 0 ∉ options.musicDirectory)
    (short : options.musicDirectory.length + 257 < 2 ^ 31)
    (names : ∀ fileName ∈ entries, 0 ∉ fileName ∧ fileName.length ≤ 255) {i : Nat} {path : String}
    (listed : cfg.songPaths[i]? = some path) :
    ∃ fileName, (songFiles entries)[i]? = some fileName ∧ ascii path = jointPath options.musicDirectory fileName := by
  obtain ⟨heap, array, answers, text, loaded, fresh, run, length, reads⟩ := serving.loads
  rw [serving.listing] at run
  obtain ⟨p, rfl, enough, done⟩ := getSongPathsFromDir_ok fresh clean short names run
  have below : i < songCount := length ▸ (List.getElem?_eq_some_iff.mp listed).1
  obtain ⟨fileName, here⟩ : ∃ fileName, (songFiles entries)[i]? = some fileName :=
    ⟨_, List.getElem?_eq_getElem (by omega)⟩
  have stored := done.songPathAt ((List.getElem?_take_of_lt below).trans here) clean
    (names _ (List.mem_of_mem_filter (List.mem_of_getElem? here))).1
  exact ⟨fileName, here, Except.ok.inj ((reads i path listed).symm.trans stored)⟩

/-- From the arguments of the server to the player: what a client plays, if success is reported to it, is the file with
the number that it has typed among the songs of the directory, in the order of the directory, whole unless some `send`
took less than it was given. -/
theorem song_service_plays (serving : Serving argv opendir cfg options entries)
    (strings : ∀ argument ∈ argv, 0 ∉ argument ∧ argument.length + 257 < 2 ^ 31)
    (names : ∀ fileName ∈ entries, 0 ∉ fileName ∧ fileName.length ≤ 255)
    (reach : (sessionSystem cfg).Reach s) (finished : s.player.pc = .finished) (success : .streamed ∈ s.handler.log) :
    ∃ (songIdx : Int) (fileName : Bytes) (path : String) (content : Bytes), 1 ≤ songIdx ∧ songIdx ≤ songCount ∧
      (endsNumber s.asked = true → ∃ request, typedRequest cfg.typed cfg.command = some request ∧
        atoi request = some songIdx) ∧
      (songFiles entries)[(songIdx - 1).toNat]? = some fileName ∧
      ascii path = jointPath (argv[2]?.getD (ascii "./media")) fileName ∧ cfg.files path = some content ∧
      (s.player.written = content ↔ ∀ call ∈ s.calls, call.takesAll = true) := by
  obtain ⟨port, sets⟩ := setOptions_eq argv
  cases sets.symm.trans serving.sets
  have argument : 0 ∉ argv[2]?.getD (ascii "./media") ∧ (argv[2]?.getD (ascii "./media")).length + 257 < 2 ^ 31 := by
    cases given : argv[2]? with
    | none => decide
    | some argument => exact strings argument (List.mem_of_getElem? given)
  obtain ⟨-, -, plays⟩ := (SessionInv.reach reach).delivers finished
  obtain ⟨songIdx, path, content, -, chosen, file, whole⟩ := plays success
  obtain ⟨fileName, listed, joint⟩ := serving.path argument.1 argument.2 names chosen.listed
  exact ⟨songIdx, fileName, path, content, chosen.number.1, chosen.number.2, chosen.typed, listed, joint, file, whole⟩

/-- The songs of the default directory. -/
def mediaConfig : SessionConfig :=
  { secondSongConfig with
    songPaths := ["./media/a.mp3", "./media/.mp3", "./media/c.mp3"]
    files := fun path => if path = "./media/.mp3" then some [7, 8] else none }

theorem serving_media :
    Serving [ascii "server"] (fun _ => some someEntries) mediaConfig ⟨3000, ascii "./media"⟩ someEntries := by
  have fresh : PathsFresh (fun _ => none) (some 0) fun i => some (i + 1) := by
    refine ⟨fun _ _ => rfl, fun i _ q answer => ⟨rfl, ?_⟩, fun i _ j _ other q answer same => other ?_⟩
    · cases answer
      simp
    · cases answer
      simpa using same.symm
  obtain ⟨loaded, run, done⟩ := (getSongPathsFromDir_answered someEntries_granted (Nat.le_refl _)
    (fun less => absurd less (by decide)) (by decide : 0 ∉ ascii "./media") (by decide)
    (by decide : ∀ fileName ∈ someEntries, 0 ∉ fileName ∧ fileName.length ≤ 255)).1 (by decide)
  refine ⟨rfl, rfl, _, _, _, _, loaded, fresh, run, rfl, fun i path listed => ?_⟩
  have read (fileName : Bytes) (here : ((songFiles someEntries).take songCount)[i]? = some fileName)
      (clean : 0 ∉ fileName) : songPathAt loaded (some 0) i = .ok (jointPath (ascii "./media") fileName) :=
    done.songPathAt here (by decide) clean
  rcases i with - | - | - | i
  · cases listed
    exact read (ascii "a.mp3") rfl (by decide)
  · cases listed
    exact read (ascii ".mp3") rfl (by decide)
  · cases listed
    exact read (ascii "c.mp3") rfl (by decide)
  · cases listed

theorem song_service_plays_second : ∃ s fileName path, (sessionSystem mediaConfig).exec (.start mediaConfig)
    secondSongRun = some s ∧ ascii path = jointPath (ascii "./media") fileName ∧
      mediaConfig.files path = some s.player.written := by
  have run : (sessionSystem mediaConfig).exec (.start mediaConfig) secondSongRun = some _ := rfl
  obtain ⟨songIdx, fileName, path, content, -, -, -, -, joint, file, whole⟩ :=
    song_service_plays serving_media (by decide) (by decide) (System.Reach.exec (.start rfl) run) rfl (by decide)
  have all := whole.mpr (by decide)
  exact ⟨_, fileName, path, run, joint, all ▸ file⟩

end PCProject
