import PCProject.SongServer

namespace PCProject
variable {songPaths : List String} {m stack : Bytes}

/-- What a handler does after the first message of its client: the next place of the handler, with the song, or
`none` where the behaviour is undefined. `stack` is what it finds in `buffer` and behind it. -/
def requestDecision (songPaths : List String) (stack m : Bytes) : Option SongPc :=
  (songStep songPaths (.start stack) (.recv (some m))).map SongHandler.pc

/-- The first message is decoded from its own bytes: whatever was in the memory before it, the handler takes the same
decision about the same number, and `atoi` reads only inside `buffer`. -/
def DecodedAlone (songPaths : List String) (m : Bytes) : Prop :=
  ∀ stack stack', bufferSize ≤ stack.length → bufferSize ≤ stack'.length →
    requestDecision songPaths stack m = requestDecision songPaths stack' m ∧
    atoi (overwrite stack m) = atoi (overwrite stack' m) ∧
    (atoi ((overwrite stack m).take bufferSize)).isSome = true

/-- The decision is made by the number and the list of the songs. -/
theorem requestDecision_eq (stack : Bytes) (some_bytes : m ≠ []) (fits : m.length ≤ bufferSize) :
    requestDecision songPaths stack m = (atoi (overwrite stack m)).bind fun songIdx =>
      if 1 ≤ songIdx ∧ songIdx ≤ songCount then
        (songPaths[(songIdx - 1).toNat]?).map (SongPc.opening songIdx)
      else some .closing := by
  have filled : m.isEmpty = false := by simpa using some_bytes
  simp only [requestDecision, SongHandler.start, songStep, filled, Bool.false_eq_true, if_false, if_pos fits,
    SongHandler.choose, Option.bind_eq_bind]
  cases atoi (overwrite stack m) with
  | none => rfl
  | some songIdx =>
    simp only [Option.bind_some]
    split
    · cases songPaths[(songIdx - 1).toNat]? <;> rfl
    · rfl

/-- The number of a message that ends it is read from the message. -/
theorem atoi_overwrite (ends : endsNumber m = true) (stack : Bytes) : atoi (overwrite stack m) = atoi m :=
  atoi_append ends _

theorem atoi_buffer (ends : endsNumber m = true) (fits : m.length ≤ bufferSize) (stack : Bytes) :
    (atoi ((overwrite stack m).take bufferSize)).isSome = true := by
  rw [overwrite, List.take_append, List.take_of_length_le fits, atoi_append ends, atoi_isSome, ends]

/-- A request is decoded from the received bytes alone exactly if they contain the end of the number: a byte
that is not a digit, behind the blanks and the sign. -/
theorem song_request_decoded_iff (some_bytes : 1 ≤ m.length) (fits : m.length ≤ bufferSize) :
    DecodedAlone songPaths m ↔ endsNumber m = true := by
  have nonempty : m ≠ [] := List.ne_nil_of_length_pos some_bytes
  constructor
  · intro alone
    by_contra runsOn
    -- the stack holds digits as far as one can see
    obtain ⟨-, -, inside⟩ := alone (List.replicate bufferSize 48) (List.replicate bufferSize 48)
      (by rw [List.length_replicate]) (by rw [List.length_replicate])
    have whole : (overwrite (List.replicate bufferSize 48) m).length = bufferSize := by
      rw [overwrite, List.length_append, List.length_drop, List.length_replicate]
      omega
    rw [List.take_of_length_le whole.le, atoi_isSome, overwrite, List.drop_replicate,
      endsNumber_zeros (Bool.eq_false_of_not_eq_true runsOn)] at inside
    cases inside
  · intro ends stack stack' _ _
    refine ⟨?_, by rw [atoi_overwrite ends, atoi_overwrite ends], atoi_buffer ends fits stack⟩
    rw [requestDecision_eq stack nonempty fits, requestDecision_eq stack' nonempty fits, atoi_overwrite ends,
      atoi_overwrite ends]

set_option maxRecDepth 8000 in
/-- The message `1` selects the first song or is rejected as the number 10, depending on the byte that the stack
has behind it, and a stack that is full of digits is read beyond the buffer. -/
theorem song_request_read_from_stack :
    requestDecision ["a.mp3", "b.mp3", "c.mp3"] (List.replicate bufferSize 0) (ascii "1") =
      some (.opening 1 "a.mp3") ∧
    requestDecision ["a.mp3", "b.mp3", "c.mp3"] (48 :: 48 :: List.replicate bufferSize 0) (ascii "1") = some .closing ∧
    requestDecision ["a.mp3", "b.mp3", "c.mp3"] (List.replicate bufferSize 48) (ascii "1") = none ∧
    ¬DecodedAlone ["a.mp3", "b.mp3", "c.mp3"] (ascii "1") := by
  refine ⟨rfl, rfl, rfl, fun alone => ?_⟩
  obtain ⟨same, _⟩ := alone (List.replicate bufferSize 0) (48 :: 48 :: List.replicate bufferSize 0) (Nat.le_refl _)
    (by simp [bufferSize])
  cases same

/-- The line that the given client sends. -/
theorem song_request_decoded_line : DecodedAlone ["a.mp3", "b.mp3", "c.mp3"] (ascii "2\n") :=
  (song_request_decoded_iff (by decide) (by decide)).mpr (by decide)

end PCProject
