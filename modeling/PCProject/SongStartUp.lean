import PCProject.SongDirectory

namespace PCProject
variable {directory fileName bytes : Bytes} {heap before : PathHeap} {p q idx n : Nat} {paths : Nat → Nat}
  {answers : Nat → Option Nat} {found entries : List Bytes} {offset : Int}

/-- The path of a file in a directory. -/
def jointPath (directory fileName : Bytes) : Bytes := directory ++ ascii "/" ++ fileName

theorem writeAt_append {front old rest : List (Option UInt8)} (same : old.length = bytes.length) :
    writeAt (front ++ (old ++ rest)) front.length bytes = front ++ (bytes.map some ++ rest) := by
  rw [writeAt, List.take_left, ← same, ← List.drop_drop, List.drop_left, List.drop_left]

theorem storeBytes_inside (front old rest : List (Option UInt8))
    (stored : heap q = some (.text (front ++ (old ++ rest)))) (start : offset = front.length)
    (same : old.length = bytes.length) :
    storeBytes (some q) offset bytes heap = .ok (heap.store q (.text (front ++ (bytes.map some ++ rest)))) := by
  have inside : 0 ≤ offset ∧ offset + bytes.length ≤ (front ++ (old ++ rest)).length := by
    simp only [List.length_append]
    omega
  have place : offset.toNat = front.length := by omega
  simp only [storeBytes, stored, if_pos inside, place, writeAt_append same]

theorem addInt_eq {a b : Int} (low : 0 ≤ a + b) (high : a + b < 2 ^ 31) : addInt a b = .ok (a + b) := by
  rw [addInt, if_pos ⟨by omega, high⟩]

theorem pathSize_of {a b c d e : Int} {size : Nat} (first : addInt a 1 = .ok c) (second : addInt c b = .ok d)
    (third : addInt d 1 = .ok e) (bytes : (e % 2 ^ 64).toNat = size) : pathSize a b = .ok size := by
  simp only [pathSize, first, second, third, bytes, bind, Except.bind]

theorem pathSize_eq (fits : directory.length + fileName.length + 2 < 2 ^ 31) :
    pathSize (directory.length : Int) fileName.length = .ok (directory.length + fileName.length + 2) :=
  pathSize_of (addInt_eq (by omega) (by omega)) (addInt_eq (by omega) (by omega)) (addInt_eq (by omega) (by omega))
    (by omega)

/-- The steps of `joinPath`, one heap after the other. -/
theorem joinPath_of {songPaths path : Option Nat} {size : Nat} {dSize fSize : Int} {h₁ h₂ h₃ h₄ h₅ h₆ : PathHeap}
    (room : pathSize dSize fSize = .ok size)
    (block : pathMalloc heap path (.text (List.replicate size none)) = .ok h₁)
    (entry : storePath h₁ songPaths idx path = .ok h₂) (first : strcpy path 0 directory h₂ = .ok h₃)
    (slash : strcpy path dSize (ascii "/") h₃ = .ok h₄) (second : strcpy path (dSize + 1) fileName h₄ = .ok h₅)
    (ended : storeBytes path (dSize + 1 + fSize) [0] h₅ = .ok h₆) :
    joinPath directory dSize songPaths path idx fileName fSize heap = .ok h₆ := by
  simp only [joinPath, room, block, entry, first, slash, second, ended, bind, Except.bind]

/-- A granted block gets the joint path with its NUL, which fill it to its last byte. -/
theorem joinPath_granted {pointers : List (Option (Option Nat))}
    (fits : directory.length + fileName.length + 2 < 2 ^ 31) (free : heap q = none) (other : q ≠ p)
    (array : heap p = some (.pointers pointers)) (inside : idx < pointers.length) :
    ∃ heap', joinPath directory directory.length (some p) (some q) idx fileName fileName.length heap = .ok heap' ∧
      heap' p = some (.pointers (pointers.set idx (some (some q)))) ∧
      heap' q = some (.text ((jointPath directory fileName ++ [0]).map some)) ∧
      ∀ a, a ≠ p → a ≠ q → heap' a = heap a := by
  -- each part overwrites the NUL of the part in front of it
  have blank : List.replicate (directory.length + fileName.length + 2) (none : Option UInt8) =
      [] ++ (List.replicate (directory.length + 1) none ++ List.replicate (fileName.length + 1) none) := by
    rw [List.nil_append, List.replicate_append_replicate,
      show directory.length + fileName.length + 2 = directory.length + 1 + (fileName.length + 1) by omega]
  have copied : [] ++ ((directory ++ [0]).map some ++ List.replicate (fileName.length + 1) none) =
      directory.map some ++ ([some 0, none] ++ List.replicate fileName.length none) := by
    simp [List.replicate_succ]
  have slashed : directory.map some ++ ((ascii "/" ++ [0]).map some ++ List.replicate fileName.length none) =
      (directory ++ ascii "/").map some ++ ((some 0 :: List.replicate fileName.length none) ++ []) := by
    simp
  have ended : (directory ++ ascii "/").map some ++ ((fileName ++ [0]).map some ++ []) =
      (jointPath directory fileName).map some ++ ([some 0] ++ []) := by
    simp [jointPath]
  have slashLength : (ascii "/").length = 1 := rfl
  have entered : storePath (heap.store q (.text (List.replicate (directory.length + fileName.length + 2) none)))
      (some p) idx (some q) = .ok ((heap.store q (.text (List.replicate (directory.length + fileName.length + 2)
        none))).store p (.pointers (pointers.set idx (some (some q))))) := by
    simp only [storePath, Cells.store_ne _ _ other.symm, array, if_pos inside]
  refine ⟨_, joinPath_of (pathSize_eq fits)
    (if_pos (by rw [free]; rfl)) entered
    (storeBytes_inside [] (List.replicate (directory.length + 1) none) (List.replicate (fileName.length + 1) none)
      ?_ rfl ?_)
    (storeBytes_inside (directory.map some) [some 0, none] (List.replicate fileName.length none) ?_ ?_ ?_)
    (storeBytes_inside ((directory ++ ascii "/").map some) (some 0 :: List.replicate fileName.length none) [] ?_ ?_ ?_)
    (storeBytes_inside ((jointPath directory fileName).map some) [some 0] [] ?_ ?_ ?_),
      ?_, ?_, ?_⟩
  · rw [Cells.store_ne _ _ other, Cells.store_self, blank]
  · simp
  · rw [Cells.store_self, copied]
  · simp
  · simp [slashLength]
  · rw [Cells.store_self, slashed]
  · simp [slashLength]
  · simp
  · rw [Cells.store_self, ended]
  · simp only [jointPath, List.length_map, List.length_append, slashLength]
    omega
  · rfl
  · simp only [Cells.store_ne _ _ other.symm, Cells.store_self]
  · rw [Cells.store_self]
    simp
  · intro a notArray notPath
    simp only [Cells.store_ne _ _ notPath, Cells.store_ne _ _ notArray]

/-- `malloc` answers with `p` to the request for the array, and with a block of its own to each of the first requests
for a path. -/
structure PathsGranted (n : Nat) (heap : PathHeap) (p : Nat) (answers : Nat → Option Nat) (paths : Nat → Nat) :
    Prop where
  array : heap p = none
  answer : ∀ i < n, answers i = some (paths i)
  free : ∀ i < n, heap (paths i) = none
  own : ∀ i < n, paths i ≠ p
  apart : ∀ i < n, ∀ j < n, i ≠ j → paths i ≠ paths j

/-- The heap once some songs are found. -/
structure PathsLoaded (directory : Bytes) (before : PathHeap) (p : Nat) (paths : Nat → Nat) (found : List Bytes)
    (heap : PathHeap) : Prop where
  few : found.length ≤ songCount
  array : ∃ pointers, heap p = some (.pointers pointers) ∧ pointers.length = songCount ∧
    ∀ i < found.length, pointers[i]? = some (some (some (paths i)))
  text : ∀ i fileName, found[i]? = some fileName →
    heap (paths i) = some (.text ((jointPath directory fileName ++ [0]).map some))
  others : ∀ a, a ≠ p → (∀ i < found.length, a ≠ paths i) → heap a = before a

/-- The entries that count as songs. -/
def isSong (fileName : Bytes) : Bool := doesContainSuffix fileName (ascii ".mp3")

theorem PathsLoaded.next (loaded : PathsLoaded directory before p paths found heap)
    (granted : PathsGranted n before p answers paths) (fits : directory.length + fileName.length + 2 < 2 ^ 31)
    (bounded : n ≤ songCount) (room : found.length < n) :
    ∃ heap', joinPath directory directory.length (some p) (answers found.length) found.length fileName
      fileName.length heap = .ok heap' ∧ PathsLoaded directory before p paths (found ++ [fileName]) heap' := by
  obtain ⟨pointers, array, length, entries⟩ := loaded.array
  have own := granted.own _ room
  have fresh : heap (paths found.length) = none := by
    rw [loaded.others _ own fun i below => granted.apart _ room i (by omega) (by omega)]
    exact granted.free _ room
  obtain ⟨heap', run, array', text, others⟩ := joinPath_granted fits fresh own array
    (show found.length < pointers.length by omega)
  refine ⟨heap', by rw [granted.answer _ room]; exact run, ⟨?_, ⟨_, array', by simpa using length, fun i below => ?_⟩,
    ?_, ?_⟩⟩
  · rw [List.length_append, List.length_singleton]
    omega
  · rw [List.length_append, List.length_singleton] at below
    rcases Nat.lt_succ_iff_lt_or_eq.mp below with earlier | rfl
    · rw [List.getElem?_set_ne (by omega), entries i earlier]
    · rw [List.getElem?_set_self (by omega)]
  · intro i name here
    rcases Nat.lt_trichotomy i found.length with earlier | rfl | later
    · rw [List.getElem?_append_left earlier] at here
      rw [others _ (granted.own i (by omega)) (granted.apart i (by omega) _ room (by omega)), loaded.text i name here]
    · rw [List.getElem?_concat_length, Option.some.injEq] at here
      rw [text, here]
    · rw [List.getElem?_eq_none (by simpa using Nat.succ_le_of_lt later)] at here
      cases here
  · intro a notArray notPath
    rw [List.length_append, List.length_singleton] at notPath
    rw [others a notArray (notPath _ (by omega)), loaded.others a notArray fun i below => notPath i (by omega)]

theorem storePath_error {songPaths path : Option Nat} {stop : PathStop}
    (failed : storePath heap songPaths idx path = .error stop) : stop = .undefined := by
  unfold storePath at failed
  split at failed
  · cases failed
    rfl
  · split at failed
    · split at failed
      · cases failed
      · cases failed
        rfl
    · cases failed
      rfl

/-- Nobody tests for NULL before the first use of a pointer. -/
theorem joinPath_null {songPaths path : Option Nat} {dSize fSize : Int} {size : Nat}
    (room : pathSize dSize fSize = .ok size) (fresh : ∀ q, path = some q → heap q = none)
    (null : songPaths = none ∨ path = none) :
    joinPath directory dSize songPaths path idx fileName fSize heap = .error .undefined := by
  obtain ⟨h₁, block⟩ : ∃ h₁, pathMalloc heap path (.text (List.replicate size none)) = .ok h₁ := by
    cases path with
    | none => exact ⟨heap, rfl⟩
    | some q => exact ⟨_, if_pos (by rw [fresh q rfl]; rfl)⟩
  cases entry : storePath h₁ songPaths idx path with
  | error stop =>
    cases storePath_error entry
    simp only [joinPath, room, block, entry, bind, Except.bind]
  | ok h₂ =>
    rcases null with rfl | rfl
    · cases entry
    · simp only [joinPath, room, block, entry, bind, Except.bind, strcpy, storeBytes]

/-- The loop finds the first songs of the directory, up to their number, or until a request for memory is refused. -/
theorem loadPaths_answered (granted : PathsGranted n before p answers paths) (bounded : n ≤ songCount)
    (refused : n < songCount → answers n = none)
    (fits : ∀ fileName ∈ entries, directory.length + fileName.length + 2 < 2 ^ 31)
    (loaded : PathsLoaded directory before p paths found heap) (within : found.length ≤ n) :
    (((found ++ entries.filter isSong).take songCount).length ≤ n →
      ∃ all heap', loadPaths directory directory.length (some p) answers entries found.length heap =
          .ok (all.length, heap') ∧
        all = (found ++ entries.filter isSong).take songCount ∧ PathsLoaded directory before p paths all heap') ∧
    (n < ((found ++ entries.filter isSong).take songCount).length →
      loadPaths directory directory.length (some p) answers entries found.length heap = .error .undefined) := by
  induction entries generalizing found heap with
  | nil =>
    rw [List.filter_nil, List.append_nil, List.take_of_length_le loaded.few]
    exact ⟨fun _ => ⟨found, heap, rfl, rfl, loaded⟩, fun beyond => absurd within (Nat.not_le_of_lt beyond)⟩
  | cons fileName entries ih =>
    have fits' : ∀ name ∈ entries, directory.length + name.length + 2 < 2 ^ 31 :=
      fun name member => fits name (List.mem_cons_of_mem _ member)
    have here := fits fileName List.mem_cons_self
    rw [loadPaths]
    by_cases room : found.length < songCount
    · rw [if_pos room]
      cases song : doesContainSuffix fileName (ascii ".mp3") with
      | true =>
        have more : found ++ (fileName :: entries).filter isSong = (found ++ [fileName]) ++ entries.filter isSong := by
          rw [List.filter_cons_of_pos (show isSong fileName = true from song), List.append_assoc]
          rfl
        rw [more, if_pos rfl, strlenInt_eq (by omega)]
        by_cases answered : found.length < n
        · obtain ⟨heap₁, run, next⟩ := loaded.next granted here bounded answered
          rw [run]
          have rest := ih fits' next (by simpa using Nat.succ_le_of_lt answered)
          rw [List.length_append, List.length_singleton] at rest
          exact rest
        · have last : found.length = n := by omega
          have first : 1 ≤ songCount - n := by omega
          have beyond : n < ((found ++ [fileName] ++ entries.filter isSong).take songCount).length := by
            simp only [List.length_take, List.length_append, List.length_singleton]
            omega
          refine ⟨fun few => absurd few (Nat.not_le_of_lt beyond), fun _ => ?_⟩
          rw [joinPath_null (pathSize_eq here) (fun q answer => ?_) (.inr (last ▸ refused (by omega)))]
          · rfl
          · rw [last, refused (by omega)] at answer
            cases answer
      | false =>
        rw [List.filter_cons_of_neg (by rw [isSong, song]; simp), if_neg (by simp)]
        exact ih fits' loaded within
    · rw [if_neg room]
      have full : found.length = songCount := Nat.le_antisymm loaded.few (Nat.le_of_not_lt room)
      have all : (found ++ (fileName :: entries).filter isSong).take songCount = found := by rw [← full, List.take_left]
      rw [all]
      exact ⟨fun _ => ⟨found, heap, rfl, rfl, loaded⟩, fun beyond => absurd within (Nat.not_le_of_lt beyond)⟩

theorem PathsLoaded.loadPath (loaded : PathsLoaded directory before p paths found heap) {i : Nat}
    (below : i < found.length) : loadPath heap (some p) i = .ok (some (paths i)) := by
  obtain ⟨pointers, array, -, entries⟩ := loaded.array
  simp only [PCProject.loadPath, Option.bind_some, array, entries i below, Option.join_some, Option.elim_some]

/-- What `printf` and `fopen` read is the joint path. -/
theorem PathsLoaded.songPathAt (loaded : PathsLoaded directory before p paths found heap) {i : Nat}
    (here : found[i]? = some fileName) (clean : 0 ∉ directory) (clean' : 0 ∉ fileName) :
    songPathAt heap (some p) i = .ok (jointPath directory fileName) := by
  have below : i < found.length := (List.getElem?_eq_some_iff.mp here).1
  have whole : 0 ∉ jointPath directory fileName := by
    simp only [jointPath, List.mem_append, not_or]
    exact ⟨⟨clean, by decide⟩, clean'⟩
  have read : readString ((jointPath directory fileName ++ [0]).map some) = some (jointPath directory fileName) := by
    rw [List.map_append]
    exact readString_eq whole []
  simp only [PCProject.songPathAt, loaded.loadPath below, bind, Except.bind, loaded.text i fileName here, read,
    Option.elim_some, Option.bind_some]

/-- A full array is freed with its paths, and nothing else. -/
theorem PathsLoaded.freed (loaded : PathsLoaded directory before p paths found heap)
    (granted : PathsGranted songCount before p answers paths) (full : found.length = songCount) :
    freeSongPaths (some p) heap = .ok before := by
  obtain ⟨pointers, array, length, entries⟩ := loaded.array
  obtain ⟨heap', run, array', left, others⟩ : ∃ h, forRange 0 songCount (freeSongPath (some p)) heap = .ok h ∧ _ :=
    forRange_count (I := fun k h => h p = some (.pointers pointers) ∧
      (∀ i < songCount, h (paths i) = if i < k then none else heap (paths i)) ∧
      ∀ a, a ≠ p → (∀ i < songCount, a ≠ paths i) → h a = before a)
    ⟨array, fun i _ => by simp, fun a notArray notPath => loaded.others a notArray (full ▸ notPath)⟩
    fun k h below inv => by
      obtain ⟨array', left, others⟩ := inv
      have own := granted.own k below
      obtain ⟨name, here⟩ : ∃ name, found[k]? = some name := ⟨_, List.getElem?_eq_getElem (by omega)⟩
      have mine : h (paths k) = some _ :=
        (left k below).trans ((if_neg (Nat.lt_irrefl k)).trans (loaded.text k name here))
      refine ⟨h.free (paths k), ?_, ?_, fun i inside => ?_, fun a notArray notPath => ?_⟩
      · simp only [freeSongPath, PCProject.loadPath, Int.toNat_natCast, Option.bind_some, array',
          entries k (full ▸ below), Option.join_some, Option.elim_some, bind, Except.bind, freePath, mine,
          Option.isSome_some, if_true]
      · rw [Cells.free_ne _ own.symm, array']
      · rcases Nat.lt_trichotomy i k with earlier | rfl | later
        · rw [Cells.free_ne _ (granted.apart i inside k below (by omega)), left i inside, if_pos earlier,
            if_pos (by omega)]
        · rw [Cells.free_self, if_pos (by omega)]
        · rw [Cells.free_ne _ (granted.apart i inside k below (by omega)), left i inside, if_neg (by omega),
            if_neg (by omega)]
      · rw [Cells.free_ne _ (notPath k below), others a notArray notPath]
  have whole : heap'.free p = before := by
    funext a
    by_cases here : a = p
    · rw [here, Cells.free_self, granted.array]
    · rw [Cells.free_ne _ here]
      by_cases path : ∃ i < songCount, a = paths i
      · obtain ⟨i, inside, rfl⟩ := path
        rw [left i inside, if_pos inside, granted.free i inside]
      · exact others a here fun i inside same => path ⟨i, inside, same⟩
  simp only [freeSongPaths, run, bind, Except.bind, freePath, array', Option.isSome_some, if_true, whole]

/-- The songs of a directory. -/
def songFiles (entries : List Bytes) : List Bytes := entries.filter fun fileName => (ascii ".mp3").isSuffixOf fileName

/-- What is printed about the paths. -/
def foundText (directory : Bytes) (songs : List Bytes) (k : Nat) : Bytes :=
  ascii "Found 3 songs\n" ++ (List.range k).flatMap fun i => foundLine i (jointPath directory (songs.getD i []))

theorem filter_isSong (names : ∀ fileName ∈ entries, 0 ∉ fileName ∧ fileName.length < 2 ^ 31) :
    entries.filter isSong = songFiles entries := by
  refine List.filter_congr fun fileName member => ?_
  obtain ⟨clean, fits⟩ := names fileName member
  rw [Bool.eq_iff_iff, List.isSuffixOf_iff_suffix]
  exact doesContainSuffix_iff clean (by decide) fits (by decide)

theorem PathsLoaded.printed (loaded : PathsLoaded directory before p paths found heap) (clean : 0 ∉ directory)
    (names : ∀ fileName ∈ found, 0 ∉ fileName) (full : found.length = songCount) :
    forRange 0 songCount (printPath heap (some p)) (foundText directory found 0) =
      .ok (foundText directory found songCount) := by
  obtain ⟨printed, run, here⟩ : ∃ printed, forRange 0 songCount (printPath heap (some p))
      (foundText directory found 0) = .ok printed ∧ _ :=
    forRange_count (I := fun k printed => printed = foundText directory found k) rfl fun k printed below inv => by
      have here : found[k]? = some (found.getD k []) := by
        rw [List.getD_eq_getElem?_getD, List.getElem?_eq_getElem (full ▸ below), Option.getD_some]
      have path := loaded.songPathAt here clean (names _ (List.mem_of_getElem? here))
      refine ⟨foundText directory found (k + 1), ?_, rfl⟩
      simp only [printPath, Int.toNat_natCast, path, bind, Except.bind, inv, foundText, List.range_succ,
        List.flatMap_append, List.flatMap_singleton, List.append_assoc]
  rw [run, here]

theorem foundText_congr {songs : List Bytes} {k : Nat} (agree : ∀ i < k, found[i]? = songs[i]?) :
    foundText directory found k = foundText directory songs k := by
  have lines : ∀ i ∈ List.range k, foundLine i (jointPath directory (found.getD i [])) =
      foundLine i (jointPath directory (songs.getD i [])) := fun i member => by
    rw [List.getD_eq_getElem?_getD, List.getD_eq_getElem?_getD, agree i (List.mem_range.mp member)]
  rw [foundText, foundText, List.flatMap_congr lines]

/-- The whole function, with as many granted requests as there may be. -/
theorem getSongPathsFromDir_answered (granted : PathsGranted n heap p answers paths) (bounded : n ≤ songCount)
    (refused : n < songCount → answers n = none) (clean : 0 ∉ directory) (short : directory.length + 257 < 2 ^ 31)
    (names : ∀ fileName ∈ entries, 0 ∉ fileName ∧ fileName.length ≤ 255) :
    (((songFiles entries).take songCount).length ≤ n →
      ∃ loaded, getSongPathsFromDir directory (some entries) (some p) answers heap =
          (if (songFiles entries).length < songCount then .error (.tooFew (songFiles entries).length directory)
          else .ok (foundText directory (songFiles entries) songCount, loaded)) ∧
        PathsLoaded directory heap p paths ((songFiles entries).take songCount) loaded) ∧
    (n < ((songFiles entries).take songCount).length →
      getSongPathsFromDir directory (some entries) (some p) answers heap = .error .undefined) := by
  have enter : PathsLoaded directory heap p paths []
      (heap.store p (.pointers (List.replicate songCount none))) := by
    refine ⟨Nat.zero_le _, ⟨_, Cells.store_self .., List.length_replicate, fun i below => ?_⟩, fun i name here => ?_,
      fun a notArray _ => Cells.store_ne _ _ notArray⟩
    · exact absurd below (Nat.not_lt_zero i)
    · cases here
  have songs : entries.filter isSong = songFiles entries :=
    filter_isSong fun name member => ⟨(names name member).1, by have := (names name member).2; omega⟩
  have d : strlenInt directory = directory.length := strlenInt_eq (by omega)
  have loop := loadPaths_answered granted bounded refused (fun name member => by have := (names name member).2; omega)
    enter (Nat.zero_le _)
  rw [List.nil_append, songs, List.length_nil, ← d] at loop
  have length : ((songFiles entries).take songCount).length = min songCount (songFiles entries).length :=
    List.length_take
  refine ⟨fun few => ?_, fun beyond => ?_⟩
  · obtain ⟨found, loaded, run, rfl, done⟩ := loop.1 few
    refine ⟨loaded, ?_, done⟩
    simp only [getSongPathsFromDir, pathMalloc, granted.array, Option.isNone_none, if_true, bind, Except.bind, run]
    by_cases few : (songFiles entries).length < songCount
    · rw [if_pos (by omega), if_pos few, length, Nat.min_eq_right (Nat.le_of_lt few)]
    · have members : ∀ fileName ∈ (songFiles entries).take songCount, 0 ∉ fileName := fun name member =>
        (names name (List.mem_of_mem_filter (List.mem_of_mem_take member))).1
      have printed : forRange 0 songCount (printPath loaded (some p))
          (ascii "Found " ++ ascii (toString songCount) ++ ascii " songs\n") = .ok (foundText directory _ songCount) :=
        done.printed clean members (by omega)
      rw [if_neg (by omega), if_neg few, printed, foundText_congr fun i below => List.getElem?_take_of_lt below]
  · simp only [getSongPathsFromDir, pathMalloc, granted.array, Option.isNone_none, if_true, bind, Except.bind,
      loop.2 beyond]

/-- The start-up with a directory of any size; a file name has at most 255 bytes. It goes on exactly if there are enough
songs. Then each pointer leads to the path of a song, in the order of the directory, no byte has been stored outside a
block, and `free_song_paths` gives all blocks back. -/
theorem song_paths_loaded (granted : PathsGranted songCount heap p answers paths)
    (path : 0 ∉ directory ∧ directory.length + 257 < 2 ^ 31)
    (names : ∀ fileName ∈ entries, 0 ∉ fileName ∧ fileName.length ≤ 255) :
    ∃ loaded, getSongPathsFromDir directory (some entries) (some p) answers heap =
        (if (songFiles entries).length < songCount then .error (.tooFew (songFiles entries).length directory)
        else .ok (foundText directory (songFiles entries) songCount, loaded)) ∧
      (songCount ≤ (songFiles entries).length →
        (∀ i < songCount, ∀ fileName, (songFiles entries)[i]? = some fileName →
          songPathAt loaded (some p) i = .ok (jointPath directory fileName)) ∧
        freeSongPaths (some p) loaded = .ok heap) := by
  have length : ((songFiles entries).take songCount).length = min songCount (songFiles entries).length :=
    List.length_take
  obtain ⟨loaded, run, done⟩ := (getSongPathsFromDir_answered granted (Nat.le_refl _)
    (fun less => absurd less (Nat.lt_irrefl _)) path.1 path.2 names).1 (length ▸ Nat.min_le_left _ _)
  refine ⟨loaded, run, fun enough => ⟨fun i below name here => ?_, done.freed granted (by omega)⟩⟩
  refine done.songPathAt ?_ path.1 (names name (List.mem_of_mem_filter (List.mem_of_getElem? here))).1
  rw [List.getElem?_take_of_lt below, here]

/-- Six entries, four of which are songs. -/
def someEntries : List Bytes :=
  [ascii ".", ascii "a.mp3", ascii "b.txt", ascii ".mp3", ascii "c.mp3", ascii "d.mp3"]

theorem someEntries_granted :
    PathsGranted songCount (fun _ => none) 0 (fun i => some (i + 1)) (fun i => i + 1) := by
  refine ⟨rfl, fun i _ => rfl, fun i _ => rfl, fun i _ => Nat.succ_ne_zero i, fun i _ j _ other => ?_⟩
  exact fun same => other (Nat.succ.inj same)

theorem song_paths_loaded_some :
    ∃ loaded, getSongPathsFromDir (ascii "./media") (some someEntries) (some 0) (fun i => some (i + 1))
        (fun _ => none) =
        .ok (ascii "Found 3 songs\n1: `./media/a.mp3`\n2: `./media/.mp3`\n3: `./media/c.mp3`\n", loaded) ∧
      songPathAt loaded (some 0) 2 = .ok (ascii "./media/c.mp3") ∧
      freeSongPaths (some 0) loaded = .ok fun _ => none := by
  obtain ⟨loaded, run, holds⟩ :=
    song_paths_loaded someEntries_granted (by decide : 0 ∉ ascii "./media" ∧ (ascii "./media").length + 257 < 2 ^ 31)
      (by decide : ∀ fileName ∈ someEntries, 0 ∉ fileName ∧ fileName.length ≤ 255)
  obtain ⟨paths, freed⟩ := holds (by decide)
  exact ⟨loaded, run, paths 2 (by decide) _ rfl, freed⟩

/-- `malloc` gives no block away twice; any request may be refused. -/
structure PathsFresh (heap : PathHeap) (songPaths : Option Nat) (answers : Nat → Option Nat) : Prop where
  array : ∀ p, songPaths = some p → heap p = none
  free : ∀ i < songCount, ∀ q, answers i = some q → heap q = none ∧ songPaths ≠ some q
  apart : ∀ i < songCount, ∀ j < songCount, i ≠ j → ∀ q, answers i = some q → answers j ≠ some q

/-- The first request for a path that is refused, if there is one. -/
theorem first_refused (answers : Nat → Option Nat) (k : Nat) :
    ∃ n ≤ k, (∀ i < n, ∃ q, answers i = some q) ∧ (n < k → answers n = none) := by
  induction k with
  | zero =>
    exact ⟨0, Nat.le_refl 0, fun i below => absurd below (Nat.not_lt_zero i), fun less => absurd less (by omega)⟩
  | succ k ih =>
    obtain ⟨n, within, before, refused⟩ := ih
    cases last : answers n with
    | none => exact ⟨n, by omega, before, fun _ => last⟩
    | some q =>
      have whole : n = k := by
        by_contra less
        rw [refused (by omega)] at last
        cases last
      refine ⟨n + 1, by omega, fun i below => ?_, fun less => by omega⟩
      rcases Nat.lt_succ_iff_lt_or_eq.mp below with earlier | rfl
      · exact before i earlier
      · exact ⟨q, last⟩

theorem PathsFresh.granted (fresh : PathsFresh heap (some p) answers) :
    ∃ n ≤ songCount, PathsGranted n heap p answers (fun i => (answers i).getD 0) ∧
      (n < songCount → answers n = none) := by
  obtain ⟨n, bounded, before, refused⟩ := first_refused answers songCount
  have answer : ∀ i < n, answers i = some ((answers i).getD 0) := fun i below => by
    obtain ⟨q, here⟩ := before i below
    rw [here, Option.getD_some]
  refine ⟨n, bounded, ⟨fresh.array p rfl, answer, fun i below => ?_, fun i below same => ?_,
    fun i below j below' other same => ?_⟩, refused⟩
  · exact (fresh.free i (by omega) _ (answer i below)).1
  · exact (fresh.free i (by omega) _ (answer i below)).2 (congrArg some same.symm)
  · exact fresh.apart i (by omega) j (by omega) other _ (answer i below) (same ▸ answer j below')

/-- Without an array the first song is the end. -/
theorem loadPaths_noArray (free : ∀ q, answers 0 = some q → heap q = none)
    (fits : ∀ fileName ∈ entries, directory.length + fileName.length + 2 < 2 ^ 31) :
    loadPaths directory directory.length none answers entries 0 heap =
      if entries.filter isSong = [] then .ok (0, heap) else .error .undefined := by
  induction entries with
  | nil => rfl
  | cons fileName entries ih =>
    have here := fits fileName List.mem_cons_self
    rw [loadPaths, if_pos (show 0 < songCount by decide)]
    cases song : doesContainSuffix fileName (ascii ".mp3") with
    | true =>
      rw [if_pos rfl, strlenInt_eq (by omega), joinPath_null (pathSize_eq here) free (.inl rfl),
        List.filter_cons_of_pos (show isSong fileName = true from song), if_neg (List.cons_ne_nil _ _)]
      rfl
    | false =>
      rw [if_neg (by simp), List.filter_cons_of_neg (by rw [isSong, song]; simp)]
      exact ih fun name member => fits name (List.mem_cons_of_mem _ member)

/-- Without an array there is no success. -/
theorem getSongPathsFromDir_noArray (fresh : PathsFresh heap none answers) (short : directory.length + 257 < 2 ^ 31)
    (names : ∀ fileName ∈ entries, 0 ∉ fileName ∧ fileName.length ≤ 255) :
    getSongPathsFromDir directory (some entries) none answers heap =
      .error (if songFiles entries = [] then .tooFew 0 directory else .undefined) := by
  have songs : entries.filter isSong = songFiles entries :=
    filter_isSong fun name member => ⟨(names name member).1, by have := (names name member).2; omega⟩
  have loop : loadPaths directory directory.length none answers entries 0 heap = _ := loadPaths_noArray
    (fun q answer => (fresh.free 0 (by decide) q answer).1) (fun name member => by have := (names name member).2; omega)
  rw [songs, ← strlenInt_eq (by omega)] at loop
  simp only [getSongPathsFromDir, pathMalloc, bind, Except.bind, loop]
  by_cases none_ : songFiles entries = []
  · rw [if_pos none_, if_pos none_]
    rfl
  · rw [if_neg none_, if_neg none_]

/-- No answer of `malloc` is tested: the start-up leaves its memory exactly if a request that it needs for one of the
songs is refused. -/
theorem song_paths_undefined_iff {array : Option Nat} (fresh : PathsFresh heap array answers)
    (path : 0 ∉ directory ∧ directory.length + 257 < 2 ^ 31)
    (names : ∀ fileName ∈ entries, 0 ∉ fileName ∧ fileName.length ≤ 255) :
    getSongPathsFromDir directory (some entries) array answers heap = .error .undefined ↔
      songFiles entries ≠ [] ∧
        (array = none ∨ ∃ i < songCount, i < (songFiles entries).length ∧ answers i = none) := by
  obtain ⟨clean, short⟩ := path
  have length : ((songFiles entries).take songCount).length = min songCount (songFiles entries).length :=
    List.length_take
  cases array with
  | none =>
    rw [getSongPathsFromDir_noArray fresh short names]
    by_cases none_ : songFiles entries = []
    · simp [none_]
    · simp [none_]
  | some p =>
    obtain ⟨n, bounded, granted, refused⟩ := fresh.granted
    have outcome := getSongPathsFromDir_answered granted bounded refused clean short names
    by_cases few : ((songFiles entries).take songCount).length ≤ n
    · obtain ⟨loaded, run, -⟩ := outcome.1 few
      have fine : getSongPathsFromDir directory (some entries) (some p) answers heap ≠ .error .undefined := by
        rw [run]
        split <;> simp
      refine iff_of_false fine ?_
      rintro ⟨-, absent | ⟨i, below, inside, null⟩⟩
      · cases absent
      · have here := granted.answer i (by omega)
        rw [null] at here
        cases here
    · refine iff_of_true (outcome.2 (by omega)) ⟨fun none_ => ?_, .inr ⟨n, by omega, by omega, refused (by omega)⟩⟩
      rw [none_] at few
      exact few (Nat.zero_le n)

theorem song_paths_undefined_iff_third :
    getSongPathsFromDir (ascii "./media") (some someEntries) (some 0) (fun i => if i < 2 then some (i + 1) else none)
      (fun _ => none) = .error .undefined := by
  have fresh : PathsFresh (fun _ => none) (some 0) fun i => if i < 2 then some (i + 1) else none := by
    refine ⟨fun _ _ => rfl, fun i _ q answer => ⟨rfl, ?_⟩, fun i _ j _ other q answer same => other ?_⟩
    · split at answer
      · cases answer
        simp
      · cases answer
    · split at answer
      · split at same
        · cases answer
          simpa using same.symm
        · cases same
      · cases answer
  exact (song_paths_undefined_iff fresh (by decide) (by decide)).mpr
    ⟨by decide, .inr ⟨2, by decide, by decide, rfl⟩⟩

/-- What a successful start-up leaves. -/
theorem getSongPathsFromDir_ok {array : Option Nat} {text : Bytes} {loaded : PathHeap}
    (fresh : PathsFresh heap array answers) (clean : 0 ∉ directory) (short : directory.length + 257 < 2 ^ 31)
    (names : ∀ fileName ∈ entries, 0 ∉ fileName ∧ fileName.length ≤ 255)
    (run : getSongPathsFromDir directory (some entries) array answers heap = .ok (text, loaded)) :
    ∃ p, array = some p ∧ songCount ≤ (songFiles entries).length ∧
      PathsLoaded directory heap p (fun i => (answers i).getD 0) ((songFiles entries).take songCount) loaded := by
  cases array with
  | none =>
    rw [getSongPathsFromDir_noArray fresh short names] at run
    cases run
  | some p =>
    obtain ⟨n, bounded, granted, refused⟩ := fresh.granted
    have outcome := getSongPathsFromDir_answered granted bounded refused clean short names
    by_cases few : ((songFiles entries).take songCount).length ≤ n
    · obtain ⟨loaded', run', done⟩ := outcome.1 few
      rw [run] at run'
      split at run'
      · cases run'
      · rename_i enough
        cases run'
        exact ⟨p, rfl, Nat.le_of_not_lt enough, done⟩
    · rw [outcome.2 (Nat.lt_of_not_le few)] at run
      cases run

end PCProject
