import PCProject.ChatReceive
import PCProject.Lib.LineInput

namespace PCProject

/-- The size of the buffers of the chat client. -/
def chatBufferSize : Nat := 1024

/-- `remove_trailing_new_line` puts a NUL over the last byte of a string. It is `none` where that is the byte in
front of the buffer. -/
def removeTrailingNewLine (memory : Bytes) : Option Bytes := do
  let string ← cString memory
  if string.isEmpty then none else some (memory.set (string.length - 1) 0)

/-- `read_and_sanitize_user_input`. A length is never negative, so there is no second pass. -/
def readAndSanitizeUserInput (buffer stdin : Bytes) : Option (Bytes × Bytes) :=
  let (buffer, rest) := fgets chatBufferSize buffer stdin
  (removeTrailingNewLine buffer).map fun buffer => (buffer, rest)

/-- The message that the client reads into its cleared buffer, up to the NUL that `strlen` finds, and what is left
of its input. -/
def typedMessage (stdin : Bytes) : Option (Bytes × Bytes) := do
  let (buffer, rest) ← readAndSanitizeUserInput (List.replicate chatBufferSize 0) stdin
  let message ← cString buffer
  some (message, rest)

/-- What `printf` shows of the cleared buffer after a `read`. -/
def printedMessage (chunk : Bytes) : Option Bytes :=
  (cString (overwrite (List.replicate chatBufferSize 0) chunk)).map (· ++ [10])

/-- Where the client is: before the `read` of `set_user_name`, before its `send`, in the two threads, or gone. -/
inductive ChatterPlace
  | greeting
  | naming
  | chatting
  | exited (success : Bool)
  deriving DecidableEq

/-- The chat client. `outgoing` is a message that is read and not yet sent. The last two fields are history: the
messages given to `send`, and the bytes of each `read`. -/
structure Chatter where
  place : ChatterPlace
  chatActive : Bool
  outgoing : Option Bytes
  stdin : Bytes
  screen : Bytes
  said : List Bytes
  reads : List Bytes

/-- The calls of the client. `leave` is the end of main, which has seen `chat_active`. -/
inductive ChatterCall
  | read (answer : RecvAnswer)
  | input
  | send
  | leave

def Chatter.start (stdin : Bytes) : Chatter where
  place := .greeting
  chatActive := true
  outgoing := none
  stdin := stdin
  screen := []
  said := []
  reads := []

/-- What a `read` shows. -/
def Chatter.show (c : Chatter) (chunk : Bytes) : Option Chatter :=
  if chunk ≠ [] ∧ chunk.length ≤ chatBufferSize then
    (printedMessage chunk).map fun text => { c with screen := c.screen ++ text, reads := c.reads ++ [chunk] }
  else none

/-- One call of a thread of the client. Both threads go on until main has ended the process. `send` takes the whole
message, as the socket blocks. There is no step where the behaviour is undefined: at the end of the input, and where
`printf` would read past a buffer without a NUL. -/
def chatterStep (c : Chatter) : ChatterCall → Option Chatter
  | .read answer =>
    match c.place with
    | .greeting =>
      match answer with
      | .received chunk => (c.show chunk).map fun c => { c with place := .naming }
      | _ => some { c with place := .exited false }
    | .chatting =>
      if c.chatActive then
        match answer with
        | .received chunk => c.show chunk
        | _ => some { c with chatActive := false }
      else none
    | _ => none
  | .input =>
    if (c.place = .naming ∨ c.place = .chatting) ∧ c.outgoing = none then
      (typedMessage c.stdin).map fun (message, rest) => { c with outgoing := some message, stdin := rest }
    else none
  | .send =>
    if c.place = .naming ∨ c.place = .chatting then
      c.outgoing.map fun message => { c with place := .chatting, outgoing := none, said := c.said ++ [message] }
    else none
  | .leave => if c.place = .chatting ∧ c.chatActive = false then some { c with place := .exited true } else none

/-- What one call can do. -/
inductive ChatterMove (c : Chatter) : ChatterCall → Chatter → Prop
  | read {chunk text place} : chunk ≠ [] → chunk.length ≤ chatBufferSize → printedMessage chunk = some text →
      ChatterMove c (.read (.received chunk))
        { c with place := place, screen := c.screen ++ text, reads := c.reads ++ [chunk] }
  | hangUp {answer place chatActive} : (∀ chunk, answer ≠ .received chunk) →
      ChatterMove c (.read answer) { c with place := place, chatActive := chatActive }
  | input {message rest} : c.outgoing = none → typedMessage c.stdin = some (message, rest) →
      ChatterMove c .input { c with outgoing := some message, stdin := rest }
  | send {message} : c.outgoing = some message →
      ChatterMove c .send { c with place := .chatting, outgoing := none, said := c.said ++ [message] }
  | leave : ChatterMove c .leave { c with place := .exited true }

variable {c c' : Chatter} {stdin rest message chunk text : Bytes}

/-- The string of some memory with its last byte cut off. -/
theorem cString_set {memory string : Bytes} (reads : cString memory = some string) (some_ : string ≠ []) :
    cString (memory.set (string.length - 1) 0) = some string.dropLast := by
  obtain ⟨clean, tail, rfl⟩ := cString_eq_some.mp reads
  refine cString_eq_some.mpr ⟨fun zero => clean (List.mem_of_mem_dropLast zero), 0 :: tail, ?_⟩
  have last := List.length_pos_of_ne_nil some_
  conv_lhs => rw [← List.dropLast_append_getLast some_, List.append_assoc]
  rw [List.set_append_right _ _ (by simp), List.length_dropLast]
  simp

/-- What the client makes of a piece of its input: the string at its start without the last byte. -/
def sanitized (piece : Bytes) : Bytes := (piece.takeWhile (· ≠ 0)).dropLast

/-- A message is read unless the input is at its end or goes on with a NUL. -/
theorem typedMessage_some : typedMessage stdin = some (message, rest) ↔
    stdin.head?.any (· ≠ 0) = true ∧ message = sanitized (readLine 1023 stdin).1 ∧ rest = (readLine 1023 stdin).2 := by
  cases stdin with
  | nil =>
    have empty : cString (List.replicate chatBufferSize 0) = some [] :=
      cString_eq_some.mpr ⟨List.not_mem_nil, List.replicate 1023 0, rfl⟩
    simp [typedMessage, readAndSanitizeUserInput, fgets_nil, removeTrailingNewLine, empty]
  | cons b input =>
    obtain ⟨piece, first⟩ : ∃ piece, (readLine 1023 (b :: input)).1 = b :: piece := by
      rw [readLine]
      split <;> exact ⟨_, rfl⟩
    have string := cString_fgets (show 2 ≤ chatBufferSize by decide) (List.replicate chatBufferSize 0)
      (List.cons_ne_nil b input)
    rw [show chatBufferSize - 1 = 1023 from rfl, first] at string
    by_cases zero : b = 0
    · subst zero
      simp [typedMessage, readAndSanitizeUserInput, removeTrailingNewLine, string]
    · have some_ : (b :: piece).takeWhile (· ≠ 0) ≠ [] := by simp [zero]
      have cut := cString_set string some_
      have filled : ((b :: piece).takeWhile (· ≠ 0)).isEmpty = false := by simp [zero]
      have left : (fgets chatBufferSize (List.replicate chatBufferSize 0) (b :: input)).2 =
        (readLine 1023 (b :: input)).2 := rfl
      simp only [typedMessage, readAndSanitizeUserInput, removeTrailingNewLine, string, left, filled, cut, first,
        Option.bind_eq_bind, Option.bind_some, Bool.false_eq_true, if_false, Option.map_some, Option.some.injEq,
        Prod.mk.injEq, sanitized, List.head?_cons, Option.any_some, decide_eq_true zero, true_and]
      exact ⟨fun same => ⟨same.1.symm, same.2.symm⟩, fun same => ⟨same.1.symm, same.2.symm⟩⟩

theorem sanitized_clean (piece : Bytes) : 0 ∉ sanitized piece := by
  intro zero
  simpa using List.mem_takeWhile_imp (List.mem_of_mem_dropLast zero)

/-- A piece without a NUL loses its last byte only. -/
theorem sanitized_of_clean {piece : Bytes} (clean : 0 ∉ piece) : sanitized piece = piece.dropLast := by
  rw [sanitized, List.takeWhile_eq_self_iff.mpr]
  intro b member
  have nonzero : b ≠ 0 := fun zero => clean (zero ▸ member)
  simpa using nonzero

/-- A chunk without a NUL is shown as it is, with a newline. -/
theorem printedMessage_clean (clean : 0 ∉ chunk) :
    printedMessage chunk = if chunk.length < 1024 then some (chunk ++ [10]) else none := by
  rw [printedMessage, chatBufferSize, cString_overwrite clean]
  split <;> rfl

theorem Chatter.show_move {call : ChatterCall} (place : ChatterPlace) (shows : c.show chunk = some c')
    (same : call = .read (.received chunk)) : ChatterMove c call { c' with place := place } := by
  subst same
  unfold Chatter.show at shows
  split at shows
  · rename_i fits
    obtain ⟨text, printed, rfl⟩ := Option.map_eq_some_iff.mp shows
    exact .read fits.1 fits.2 printed
  · cases shows

theorem chatterStep_move {call : ChatterCall} (step : chatterStep c call = some c') : ChatterMove c call c' := by
  cases call with
  | read answer =>
    simp only [chatterStep] at step
    split at step
    · split at step
      · obtain ⟨shown, shows, rfl⟩ := Option.map_eq_some_iff.mp step
        exact Chatter.show_move _ shows rfl
      · rename_i other
        cases step
        exact .hangUp fun chunk same => other chunk same
    · split at step
      · split at step
        · exact Chatter.show_move c'.place step rfl
        · rename_i other
          cases step
          exact .hangUp fun chunk same => other chunk same
      · cases step
    · cases step
  | input =>
    simp only [chatterStep] at step
    split at step
    · rename_i idle
      obtain ⟨⟨message, rest⟩, types, rfl⟩ := Option.map_eq_some_iff.mp step
      exact .input idle.2 types
    · cases step
  | send =>
    simp only [chatterStep] at step
    split at step
    · obtain ⟨message, waits, rfl⟩ := Option.map_eq_some_iff.mp step
      exact .send waits
    · cases step
  | leave =>
    simp only [chatterStep] at step
    split at step
    · cases step
      exact .leave
    · cases step

/-- The invariant of a client: every piece of its input has been given to `send` without its last byte or is about to
be, and what it has read is on its screen. -/
structure ChatterInv (typed : Bytes) (c : Chatter) : Prop where
  pieces : ∃ pieces, ReadPieces 1023 typed pieces c.stdin ∧ c.said ++ c.outgoing.toList = pieces.map sanitized
  screen : (∀ chunk ∈ c.reads, 0 ∉ chunk) → c.screen = c.reads.flatMap (· ++ [10])

variable {typed : Bytes}

theorem ChatterInv.start (typed : Bytes) : ChatterInv typed (.start typed) := ⟨⟨[], .start, rfl⟩, fun _ => rfl⟩

theorem ChatterInv.step {call : ChatterCall} (inv : ChatterInv typed c) (move : ChatterMove c call c') :
    ChatterInv typed c' := by
  cases move with
  | @read chunk text _ _ _ printed =>
    refine ⟨inv.pieces, fun clean => ?_⟩
    have earlier := inv.screen fun chunk member => clean chunk (List.mem_append_left _ member)
    rw [printedMessage_clean (clean chunk (by simp))] at printed
    split at printed
    · cases printed
      simp only [List.flatMap_append, ← earlier, List.flatMap_singleton]
    · cases printed
  | hangUp => exact ⟨inv.pieces, inv.screen⟩
  | input idle types =>
    obtain ⟨pieces, run, said⟩ := inv.pieces
    obtain ⟨more, rfl, rfl⟩ := typedMessage_some.mp types
    refine ⟨⟨_, run.next fun empty => ?_, ?_⟩, inv.screen⟩
    · rw [empty] at more
      cases more
    · rw [idle, Option.toList_none, List.append_nil] at said
      rw [List.map_append, ← said]
      rfl
  | send waits =>
    obtain ⟨pieces, run, said⟩ := inv.pieces
    refine ⟨⟨pieces, run, ?_⟩, inv.screen⟩
    rw [waits, Option.toList_some] at said
    rw [Option.toList_none, List.append_nil, said]
  | leave => exact ⟨inv.pieces, inv.screen⟩

theorem ChatterInv.clean (inv : ChatterInv typed c) : ∀ message ∈ c.said, 0 ∉ message := by
  intro message member
  obtain ⟨pieces, _, said⟩ := inv.pieces
  have given : message ∈ pieces.map sanitized := said ▸ List.mem_append_left _ member
  obtain ⟨piece, _, rfl⟩ := List.mem_map.mp given
  exact sanitized_clean piece

/-- Whoever types lines and no NUL says exactly these lines, once all of them are read and sent, unless one of them
has more than 1022 bytes. -/
theorem ChatterInv.said_iff {lines : List Bytes} (inv : ChatterInv (lines.flatMap (· ++ [10])) c)
    (clean : ∀ line ∈ lines, 0 ∉ line ∧ 10 ∉ line) (done : c.stdin = [] ∧ c.outgoing = none) :
    c.said = lines ↔ ∀ line ∈ lines, line.length ≤ 1022 := by
  obtain ⟨pieces, run, said⟩ := inv.pieces
  rw [done.2, Option.toList_none, List.append_nil] at said
  constructor
  · intro same line member
    rw [← same, said] at member
    obtain ⟨piece, read, rfl⟩ := List.mem_map.mp member
    have bound := (run.bounds (by decide) piece read).2
    have part := (List.takeWhile_prefix (p := (· ≠ (0 : UInt8))) (l := piece)).length_le
    rw [sanitized, List.length_dropLast]
    omega
  · intro short
    obtain ⟨read, left⟩ := run.of_lines (fun line member => (clean line member).2)
      fun line member => Nat.lt_succ_of_le (short line member)
    have all : lines.drop pieces.length = [] := by
      cases behind : lines.drop pieces.length with
      | nil => rfl
      | cons line later =>
        rw [behind, done.1] at left
        simp at left
    rw [List.take_of_length_le (List.drop_eq_nil_iff.mp all)] at read
    rw [said, read, List.map_map]
    refine (List.map_congr_left fun line member => ?_).trans (List.map_id _)
    rw [Function.comp_apply, sanitized_of_clean (by simp [(clean line member).1]), List.dropLast_concat]
    rfl

end PCProject
