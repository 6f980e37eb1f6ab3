import PCProject.SongServer
import PCProject.Lib.CountedLoop
import PCProject.Lib.LinkedCells

namespace PCProject

/-- The options of the song server. -/
structure SongOptions where
  port : Int
  musicDirectory : Bytes
  deriving DecidableEq

/-- `set_options`. It is `none` if `atoi` leaves the argument, whose NUL is not listed. -/
def setOptions (argv : List Bytes) : Option SongOptions := do
  let port ← argv[1]?.elim (some 3000) fun argument => atoi (argument ++ [0])
  some { port := port, musicDirectory := argv[2]?.getD (ascii "./media") }

/-- `strlen` as a value of type `int`. -/
def strlenInt (string : Bytes) : Int := (string.length : Int).bmod (2 ^ 32)

/-- `strcmp` of two strings, which are listed without their NUL. -/
def strcmp : Bytes → Bytes → Int
  | [], [] => 0
  | [], b :: _ => -b.toNat
  | a :: _, [] => a.toNat
  | a :: left, b :: right => if a = b then strcmp left right else a.toNat - b.toNat

def doesContainSuffix (string suffix : Bytes) : Bool :=
  let stringLen := strlenInt string
  let suffixLen := strlenInt suffix
  suffixLen ≤ stringLen && strcmp (string.drop (stringLen - suffixLen).toNat) suffix = 0

/-- A block from `malloc`, with `none` for what has not been assigned: the array `song_paths`, or a string. -/
inductive PathBlock
  | pointers (entries : List (Option (Option Nat)))
  | text (bytes : List (Option UInt8))

abbrev PathHeap := Cells Nat PathBlock

/-- How `get_song_paths_from_dir` can end early: it exits with a message, or its behaviour is undefined, or `malloc`
does not give such an answer. -/
inductive PathStop
  | noDirectory (directory : Bytes)
  | tooFew (idx : Nat) (directory : Bytes)
  | undefined
  | unanswered

def PathStop.message : PathStop → Option Bytes
  | .noDirectory directory => some (ascii "ERROR! Could not open directory `" ++ directory ++ ascii "`\n")
  | .tooFew idx directory => some (ascii "ERROR! Was only able to load " ++ ascii (toString idx) ++ ascii "/" ++
    ascii (toString songCount) ++ ascii " songs from `" ++ directory ++ ascii "`\n")
  | .undefined | .unanswered => none

/-- The answer of `malloc` may be NULL, which nobody tests. -/
def pathMalloc (heap : PathHeap) (answer : Option Nat) (block : PathBlock) : Except PathStop PathHeap :=
  match answer with
  | none => .ok heap
  | some p => if (heap p).isNone then .ok (heap.store p block) else .error .unanswered

/-- A sum of two values of type `int`. -/
def addInt (a b : Int) : Except PathStop Int :=
  if -2 ^ 31 ≤ a + b ∧ a + b < 2 ^ 31 then .ok (a + b) else .error .undefined

/-- `directory_name_size + 1 + file_name_size + 1`, given to `malloc`. -/
def pathSize (directoryNameSize fileNameSize : Int) : Except PathStop Nat := do
  let size ← addInt directoryNameSize 1
  let size ← addInt size fileNameSize
  let size ← addInt size 1
  .ok (size % 2 ^ 64).toNat

/-- The assignment `song_paths[idx] = path`. -/
def storePath (heap : PathHeap) (songPaths : Option Nat) (idx : Nat) (path : Option Nat) : Except PathStop PathHeap :=
  match songPaths with
  | none => .error .undefined
  | some p =>
    match heap p with
    | some (.pointers entries) =>
      if idx < entries.length then .ok (heap.store p (.pointers (entries.set idx (some path)))) else .error .undefined
    | _ => .error .undefined

/-- The value of `song_paths[idx]`. -/
def loadPath (heap : PathHeap) (songPaths : Option Nat) (idx : Nat) : Except PathStop (Option Nat) :=
  match songPaths.bind heap with
  | some (.pointers entries) => (entries[idx]?).join.elim (.error .undefined) .ok
  | _ => .error .undefined

/-- A block after some bytes have been copied to a place in it. -/
def writeAt (memory : List (Option UInt8)) (offset : Nat) (bytes : Bytes) : List (Option UInt8) :=
  memory.take offset ++ (bytes.map some ++ memory.drop (offset + bytes.length))

/-- Some bytes are stored at `path + offset`. -/
def storeBytes (path : Option Nat) (offset : Int) (bytes : Bytes) (heap : PathHeap) : Except PathStop PathHeap :=
  match path with
  | none => .error .undefined
  | some q =>
    match heap q with
    | some (.text memory) =>
      if 0 ≤ offset ∧ offset + bytes.length ≤ memory.length then
        .ok (heap.store q (.text (writeAt memory offset.toNat bytes)))
      else .error .undefined
    | _ => .error .undefined

/-- `strcpy` copies a string with its NUL. -/
def strcpy (path : Option Nat) (offset : Int) (source : Bytes) (heap : PathHeap) : Except PathStop PathHeap :=
  storeBytes path offset (source ++ [0]) heap

/-- What the loop does for a song: `malloc` answers `path`, which is filled with the joint path. -/
def joinPath (directory : Bytes) (directoryNameSize : Int) (songPaths path : Option Nat) (idx : Nat) (fileName : Bytes)
    (fileNameSize : Int) (heap : PathHeap) : Except PathStop PathHeap := do
  let size ← pathSize directoryNameSize fileNameSize
  let heap ← pathMalloc heap path (.text (List.replicate size none))
  let heap ← storePath heap songPaths idx path
  let heap ← strcpy path 0 directory heap
  let heap ← strcpy path directoryNameSize (ascii "/") heap
  let heap ← strcpy path (directoryNameSize + 1) fileName heap
  storeBytes path (directoryNameSize + 1 + fileNameSize) [0] heap

/-- The loop over the entries that `readdir` gives, with the number of the songs found. -/
def loadPaths (directory : Bytes) (directoryNameSize : Int) (songPaths : Option Nat) (paths : Nat → Option Nat) :
    List Bytes → Nat → PathHeap → Except PathStop (Nat × PathHeap)
  | [], idx, heap => .ok (idx, heap)
  | fileName :: entries, idx, heap =>
    if idx < songCount then
      if doesContainSuffix fileName (ascii ".mp3") then do
        let heap ← joinPath directory directoryNameSize songPaths (paths idx) idx fileName (strlenInt fileName) heap
        loadPaths directory directoryNameSize songPaths paths entries (idx + 1) heap
      else loadPaths directory directoryNameSize songPaths paths entries idx heap
    else .ok (idx, heap)

/-- A string in a block, up to its NUL. -/
def readString : List (Option UInt8) → Option Bytes
  | some b :: memory => if b = 0 then some [] else (readString memory).map (b :: ·)
  | _ => none

/-- The string `song_paths[idx]`, as `printf` and `fopen` read it. -/
def songPathAt (heap : PathHeap) (songPaths : Option Nat) (idx : Nat) : Except PathStop Bytes := do
  let path ← loadPath heap songPaths idx
  match path.bind heap with
  | some (.text memory) => (readString memory).elim (.error .undefined) .ok
  | _ => .error .undefined

/-- A line that tells of a song. -/
def foundLine (idx : Nat) (path : Bytes) : Bytes := ascii (toString (idx + 1)) ++ ascii ": `" ++ path ++ ascii "`\n"

/-- The body of the loop that prints the paths. -/
def printPath (heap : PathHeap) (songPaths : Option Nat) (i : Int) (printed : Bytes) : Except PathStop Bytes := do
  let path ← songPathAt heap songPaths i.toNat
  .ok (printed ++ foundLine i.toNat path)

/-- `get_song_paths_from_dir` with the entries of the directory, if `opendir` can open it. `malloc` answers `songPaths`
to the request for the array and `paths` to the others. The result is what is printed, and the heap. -/
def getSongPathsFromDir (directory : Bytes) (listing : Option (List Bytes)) (songPaths : Option Nat)
    (paths : Nat → Option Nat) (heap : PathHeap) : Except PathStop (Bytes × PathHeap) := do
  let heap ← pathMalloc heap songPaths (.pointers (List.replicate songCount none))
  match listing with
  | none => .error (.noDirectory directory)
  | some entries => do
    let (idx, heap) ← loadPaths directory (strlenInt directory) songPaths paths entries 0 heap
    if idx ≠ songCount then .error (.tooFew idx directory)
    else do
      let printed ← forRange 0 songCount (printPath heap songPaths)
        (ascii "Found " ++ ascii (toString songCount) ++ ascii " songs\n")
      .ok (printed, heap)

/-- `free` of a pointer, which may be NULL. -/
def freePath (heap : PathHeap) : Option Nat → Except PathStop PathHeap
  | none => .ok heap
  | some p => if (heap p).isSome then .ok (heap.free p) else .error .undefined

/-- The body of the loop of `free_song_paths`. -/
def freeSongPath (songPaths : Option Nat) (i : Int) (heap : PathHeap) : Except PathStop PathHeap := do
  let path ← loadPath heap songPaths i.toNat
  freePath heap path

def freeSongPaths (songPaths : Option Nat) (heap : PathHeap) : Except PathStop PathHeap := do
  let heap ← forRange 0 songCount (freeSongPath songPaths) heap
  freePath heap songPaths

section Strings
variable {string suffix : Bytes}

theorem strcmp_eq_zero (clean : 0 ∉ string) (clean' : 0 ∉ suffix) : strcmp string suffix = 0 ↔ string = suffix := by
  have positive {b : UInt8} (other : b ≠ 0) : b.toNat ≠ 0 := fun zero => other (UInt8.toNat.inj zero)
  induction string generalizing suffix with
  | nil =>
    cases suffix with
    | nil => simp [strcmp]
    | cons b right =>
      have first := positive (List.ne_of_not_mem_cons clean').symm
      simp only [strcmp, reduceCtorEq, iff_false]
      omega
  | cons a left ih =>
    cases suffix with
    | nil =>
      have first := positive (List.ne_of_not_mem_cons clean).symm
      simp only [strcmp, reduceCtorEq, iff_false]
      omega
    | cons b right =>
      rw [strcmp, List.cons.injEq]
      by_cases same : a = b
      · rw [if_pos same]
        have rest := ih (List.not_mem_of_not_mem_cons clean) (List.not_mem_of_not_mem_cons clean')
        exact rest.trans ⟨fun equal => ⟨same, equal⟩, And.right⟩
      · have differ : a.toNat ≠ b.toNat := fun equal => same (UInt8.toNat.inj equal)
        rw [if_neg same]
        constructor
        · intro zero
          omega
        · exact fun equal => absurd equal.1 same

theorem strlenInt_eq (fits : string.length < 2 ^ 31) : strlenInt string = string.length := by
  unfold strlenInt
  rw [Int.bmod_def]
  omega

theorem doesContainSuffix_iff (clean : 0 ∉ string) (clean' : 0 ∉ suffix) (fits : string.length < 2 ^ 31)
    (fits' : suffix.length < 2 ^ 31) : doesContainSuffix string suffix = true ↔ suffix <:+ string := by
  rw [doesContainSuffix, strlenInt_eq fits, strlenInt_eq fits', Bool.and_eq_true, decide_eq_true_eq, decide_eq_true_eq,
    strcmp_eq_zero (fun zero => clean (List.mem_of_mem_drop zero)) clean', List.suffix_iff_eq_drop]
  have start : ((string.length : Int) - suffix.length).toNat = string.length - suffix.length := by omega
  rw [start]
  refine ⟨fun both => both.2.symm, fun equal => ⟨?_, equal.symm⟩⟩
  have length := congrArg List.length equal
  rw [List.length_drop] at length
  omega

theorem readString_eq (clean : 0 ∉ string) (rest : List (Option UInt8)) :
    readString (string.map some ++ some 0 :: rest) = some string := by
  induction string with
  | nil => rfl
  | cons b string ih =>
    have first : b ≠ 0 := (List.ne_of_not_mem_cons clean).symm
    rw [List.map_cons, List.cons_append, readString, if_neg first, ih (List.not_mem_of_not_mem_cons clean)]
    rfl

end Strings

end PCProject
