import PCProject.Lib.CString

namespace PCProject

/-- The bytes up to the first newline, at most so many, and what is left behind them. -/
def readLine : Nat → Bytes → Bytes × Bytes
  | 0, input => ([], input)
  | _ + 1, [] => ([], [])
  | n + 1, b :: rest => if b = 10 then ([b], rest) else (b :: (readLine n rest).1, (readLine n rest).2)

/-- `fgets` on some memory of which `size` bytes may be written: the memory afterwards and the input that is
left. At the end of the input the memory stays as it is. -/
def fgets (size : Nat) (memory input : Bytes) : Bytes × Bytes :=
  let (line, rest) := readLine (size - 1) input
  (if line.isEmpty then memory else overwrite memory (line ++ [0]), rest)

variable {n : Nat} {input line rest : Bytes}

theorem readLine_length (n : Nat) (input : Bytes) : (readLine n input).1.length ≤ n := by
  induction n generalizing input with
  | zero => exact Nat.le_refl 0
  | succ n ih =>
    cases input with
    | nil => exact Nat.zero_le _
    | cons b rest =>
      rw [readLine]
      split
      · exact Nat.succ_le_succ (Nat.zero_le n)
      · exact Nat.succ_le_succ (ih rest)

theorem readLine_eq_nil (positive : 0 < n) : (readLine n input).1 = [] ↔ input = [] := by
  obtain ⟨m, rfl⟩ : ∃ m, n = m + 1 := ⟨n - 1, by omega⟩
  cases input with
  | nil => exact iff_of_true rfl rfl
  | cons b rest =>
    rw [readLine]
    split <;> simp

theorem fgets_nil (size : Nat) (memory : Bytes) : fgets size memory [] = (memory, []) := by
  unfold fgets
  cases size - 1 <;> rfl

/-- The string that `fgets` leaves in memory: what it has read, up to a NUL. -/
theorem cString_fgets {size : Nat} (room : 2 ≤ size) (memory : Bytes) (some_ : input ≠ []) :
    cString (fgets size memory input).1 = some ((readLine (size - 1) input).1.takeWhile (· ≠ 0)) := by
  have filled : (readLine (size - 1) input).1.isEmpty = false := by
    simpa using fun empty => some_ ((readLine_eq_nil (by omega)).mp empty)
  simp only [fgets, filled, Bool.false_eq_true, if_false]
  rw [overwrite, cString_append (by simp), Option.some.injEq, List.takeWhile_append]
  split
  · rename_i all
    rw [(List.takeWhile_prefix _).eq_of_length all]
    simp
  · rfl

/-- A line that leaves room for its newline is read as it is. -/
theorem readLine_line (clean : 10 ∉ line) (short : line.length < n) (rest : Bytes) :
    readLine n (line ++ 10 :: rest) = (line ++ [10], rest) := by
  induction line generalizing n with
  | nil =>
    obtain ⟨m, rfl⟩ : ∃ m, n = m + 1 := ⟨n - 1, by omega⟩
    rw [List.nil_append, readLine, if_pos rfl]
    rfl
  | cons b line ih =>
    obtain ⟨m, rfl⟩ : ∃ m, n = m + 1 := ⟨n - 1, by omega⟩
    rw [List.mem_cons, not_or] at clean
    rw [List.length_cons] at short
    rw [List.cons_append, readLine, if_neg (Ne.symm clean.1), ih clean.2 (by omega)]
    rfl

/-- Successive calls read an input piece by piece. -/
inductive ReadPieces (n : Nat) (input : Bytes) : List Bytes → Bytes → Prop
  | start : ReadPieces n input [] input
  | next {pieces middle} : ReadPieces n input pieces middle → middle ≠ [] →
      ReadPieces n input (pieces ++ [(readLine n middle).1]) (readLine n middle).2

variable {pieces lines : List Bytes}

theorem ReadPieces.bounds (positive : 0 < n) (run : ReadPieces n input pieces rest) :
    ∀ piece ∈ pieces, piece ≠ [] ∧ piece.length ≤ n := by
  induction run with
  | start => simp
  | next _ more ih =>
    intro piece member
    rcases List.mem_append.mp member with earlier | last
    · exact ih piece earlier
    · rw [List.mem_singleton.mp last]
      exact ⟨fun empty => more ((readLine_eq_nil positive).mp empty), readLine_length n _⟩

/-- Lines that leave room for their newlines are read one by one. -/
theorem ReadPieces.of_lines (clean : ∀ line ∈ lines, 10 ∉ line) (short : ∀ line ∈ lines, line.length < n)
    (run : ReadPieces n (lines.flatMap (· ++ [10])) pieces rest) :
    pieces = (lines.take pieces.length).map (· ++ [10]) ∧ rest = (lines.drop pieces.length).flatMap (· ++ [10]) := by
  induction run with
  | start => exact ⟨rfl, rfl⟩
  | @next pieces middle _ more ih =>
    obtain ⟨read, left⟩ := ih
    cases behind : lines.drop pieces.length with
    | nil =>
      rw [behind] at left
      exact absurd left more
    | cons line later =>
      have here : lines[pieces.length]? = some line := by rw [← List.head?_drop, behind]; rfl
      have member : line ∈ lines := List.mem_of_getElem? here
      have next : readLine n middle = (line ++ [10], later.flatMap (· ++ [10])) := by
        rw [left, behind, List.flatMap_cons, List.append_assoc]
        exact readLine_line (clean line member) (short line member) _
      rw [next, List.length_append, List.length_singleton, List.take_add_one, here, ← List.drop_drop, behind]
      exact ⟨by rw [List.map_append, ← read]; rfl, rfl⟩

end PCProject
