import PCProject.SongRequest
import PCProject.SongStreaming
import PCProject.Lib.LineInput

namespace PCProject

/-- The sizes of the two buffers of the client. -/
def commandSize : Nat := 1024

def playerBufferSize : Nat := 4096

/-- Why the client exits early, with what it hands to `perror`. -/
inductive PlayerError
  | pipeNotOpened
  | pipeNotWritten
  | notReceived
  deriving DecidableEq

def PlayerError.message : PlayerError → String
  | .pipeNotOpened => "Error opening mpg123 pipe"
  | .pipeNotWritten => "Error writing to mpg123 pipe"
  | .notReceived => "Error receiving data"

/-- Where the connected client is: before the system call that the name tells, or at its end. -/
inductive PlayerPc
  | prompting
  | requesting (request : Bytes)
  | opening
  | receiving
  | writing (received : Bytes)
  | exited (error : PlayerError)
  | finished
  deriving DecidableEq

/-- The client of the song server. `written` is what mpg123 has been given; `sent` and `received` are
history: the bytes that `send` has accepted and those that `recv` has returned. -/
structure SongPlayer where
  pc : PlayerPc
  written : Bytes
  sent : Bytes
  received : Bytes

/-- The system calls of the client with what they return. `none` is the error result. -/
inductive PlayerCall
  | fgets
  | send (numSent : Option Nat)
  | popen (opened : Bool)
  | recv (received : Option Bytes)
  | fwrite (whole : Bool)

def SongPlayer.start : SongPlayer where
  pc := .prompting
  written := []
  sent := []
  received := []

/-- The string in `command` after `fgets`. What is typed may be nothing; then it is whatever the buffer holds. -/
def typedRequest (typed memory : Bytes) : Option Bytes := cString (fgets commandSize memory typed).1

/-- One system call of the client, with what the source does until the next one. The result of `send` is not
looked at. -/
def playerStep (typed memory : Bytes) (p : SongPlayer) : PlayerCall → Option SongPlayer
  | .fgets =>
    if p.pc = .prompting then
      (typedRequest typed memory).map fun request => { p with pc := .requesting request }
    else none
  | .send numSent =>
    match p.pc with
    | .requesting request =>
      if numSent.all fun n => n ≤ request.length ∧ (request ≠ [] → 1 ≤ n) then
        some { p with pc := .opening, sent := p.sent ++ request.take (numSent.getD 0) }
      else none
    | _ => none
  | .popen opened =>
    if p.pc = .opening then some { p with pc := if opened then .receiving else .exited .pipeNotOpened } else none
  | .recv received =>
    if p.pc = .receiving then
      match received with
      | none => some { p with pc := .exited .notReceived }
      | some bytes =>
        if bytes.isEmpty then some { p with pc := .finished }
        else if bytes.length ≤ playerBufferSize then
          some { p with pc := .writing bytes, received := p.received ++ bytes }
        else none
    else none
  | .fwrite whole =>
    match p.pc with
    | .writing bytes =>
      some (if whole then { p with pc := .receiving, written := p.written ++ bytes }
        else { p with pc := .exited .pipeNotWritten })
    | _ => none

def PlayerPc.ended : PlayerPc → Bool
  | .exited _ | .finished => true
  | _ => false

/-- What one call can do. -/
inductive PlayerMove (typed memory : Bytes) (p : SongPlayer) : PlayerCall → SongPlayer → Prop
  | fgets {request} : p.pc = .prompting → typedRequest typed memory = some request →
      PlayerMove typed memory p .fgets { p with pc := .requesting request }
  | sendFailed {request} : p.pc = .requesting request →
      PlayerMove typed memory p (.send none) { p with pc := .opening }
  | send {request n} : p.pc = .requesting request → n ≤ request.length → (request ≠ [] → 1 ≤ n) →
      PlayerMove typed memory p (.send (some n)) { p with pc := .opening, sent := p.sent ++ request.take n }
  | popenFailed : p.pc = .opening →
      PlayerMove typed memory p (.popen false) { p with pc := .exited .pipeNotOpened }
  | popen : p.pc = .opening → PlayerMove typed memory p (.popen true) { p with pc := .receiving }
  | recvFailed : p.pc = .receiving → PlayerMove typed memory p (.recv none) { p with pc := .exited .notReceived }
  | recvEnd : p.pc = .receiving → PlayerMove typed memory p (.recv (some [])) { p with pc := .finished }
  | recv {bytes} : p.pc = .receiving → bytes ≠ [] → bytes.length ≤ playerBufferSize →
      PlayerMove typed memory p (.recv (some bytes)) { p with pc := .writing bytes, received := p.received ++ bytes }
  | fwriteFailed {bytes} : p.pc = .writing bytes →
      PlayerMove typed memory p (.fwrite false) { p with pc := .exited .pipeNotWritten }
  | fwrite {bytes} : p.pc = .writing bytes →
      PlayerMove typed memory p (.fwrite true) { p with pc := .receiving, written := p.written ++ bytes }

variable {typed memory : Bytes} {p p' : SongPlayer} {call : PlayerCall}

theorem playerStep_iff : playerStep typed memory p call = some p' ↔ PlayerMove typed memory p call p' := by
  constructor
  · intro step
    cases call with
    | fgets =>
      simp only [playerStep] at step
      split at step
      · obtain ⟨request, reads, rfl⟩ := Option.map_eq_some_iff.mp step
        exact .fgets (by assumption) reads
      · cases step
    | send numSent =>
      simp only [playerStep] at step
      split at step
      · rename_i request place
        split at step
        · rename_i possible
          cases step
          cases numSent with
          | none => simpa using PlayerMove.sendFailed place
          | some n =>
            simp only [Option.all_some, decide_eq_true_eq] at possible
            exact .send place possible.1 possible.2
        · cases step
      · cases step
    | popen opened =>
      simp only [playerStep] at step
      split at step
      · cases step
        cases opened with
        | false => exact .popenFailed (by assumption)
        | true => exact .popen (by assumption)
      · cases step
    | recv received =>
      simp only [playerStep] at step
      split at step
      · rename_i place
        cases received with
        | none => cases step; exact .recvFailed place
        | some bytes =>
          cases bytes with
          | nil => cases step; exact .recvEnd place
          | cons b rest =>
            simp only [List.isEmpty_cons, Bool.false_eq_true, if_false] at step
            split at step
            · cases step; exact .recv place (List.cons_ne_nil _ _) (by assumption)
            · cases step
      · cases step
    | fwrite whole =>
      simp only [playerStep] at step
      split at step
      · rename_i bytes place
        cases step
        cases whole with
        | false => exact .fwriteFailed place
        | true => exact .fwrite place
      · cases step
  · intro move
    cases move with
    | fgets place reads => simp [playerStep, place, reads]
    | sendFailed place => simp [playerStep, place]
    | send place fits some_ => simpa [playerStep, place, fits, Nat.one_le_iff_ne_zero] using some_
    | popenFailed place => simp [playerStep, place]
    | popen place => simp [playerStep, place]
    | recvFailed place => simp [playerStep, place]
    | recvEnd place => simp [playerStep, place]
    | recv place nonempty fits => simp [playerStep, place, nonempty, fits]
    | fwriteFailed place => simp [playerStep, place]
    | fwrite place => simp [playerStep, place]

/-- A line that is typed is the request up to its first NUL, as far as it fits, whatever the buffer held. -/
theorem typedRequest_typed (memory : Bytes) (some_ : typed ≠ []) :
    typedRequest typed memory = some ((readLine 1023 typed).1.takeWhile (· ≠ 0)) :=
  cString_fgets (by decide) memory some_

end PCProject
