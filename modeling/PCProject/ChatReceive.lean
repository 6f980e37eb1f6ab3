import PCProject.ChatFraming

namespace PCProject

/-- The answers of `poll` and of `recv` to `get_message`. -/
inductive PollAnswer
  | ready
  | timedOut
  | failed
  deriving DecidableEq

inductive RecvAnswer
  | closed
  | failed
  | received (bytes : Bytes)

/-- `get_message`. It asks `poll` only if there is a time limit. It is `none` where reading the string
leaves the buffer. -/
def Client.receive (timeout : Int) (poll : PollAnswer) (recv : RecvAnswer) : Option Received :=
  if timeout ≠ -1 ∧ poll = .timedOut then some .timeout
  else if timeout ≠ -1 ∧ poll = .failed then some (.text [])
  else match recv with
  | .closed => some (.text [])
  | .failed => some (.text [])
  | .received bytes => (Client.getMessage bytes).map .text

/-- The loop of `handle_client` goes from this result to `unregister_client`. -/
def Received.Unregisters (r : Received) : Prop :=
  HandlerPc.getMessage.resume (.received r) = some .unregister ∨
    HandlerPc.getMessage.resume (.received r) = some .timedOut ∧ HandlerPc.timedOut.resume .done = some .unregister

/-- `get_message` returns the bytes that `recv` has delivered, and the handler goes on with its client unless
they say goodbye. -/
structure ReturnsReceived (timeout : Int) (b : Bytes) : Prop where
  whole : Client.receive timeout .ready (.received b) = some (.text b)
  nonempty : Client.receive timeout .ready (.received b) ≠ some (.text [])
  leaves : ∀ r, Client.receive timeout .ready (.received b) = some r → r.Unregisters → b = ascii "\\bye"

variable {timeout : Int} {b : Bytes} {r : Received}

theorem Client.receive_received (timeout : Int) (b : Bytes) :
    Client.receive timeout .ready (.received b) = (Client.getMessage b).map Received.text := by
  rw [Client.receive, if_neg (fun late => nomatch late.2), if_neg (fun late => nomatch late.2)]

theorem Client.receive_text {message : Bytes} :
    Client.receive timeout .ready (.received b) = some (.text message) ↔ Client.getMessage b = some message := by
  rw [Client.receive_received, Option.map_eq_some_iff]
  constructor
  · rintro ⟨same, reads, text⟩
    cases text
    exact reads
  · exact fun reads => ⟨message, reads, rfl⟩

/-- The handler unregisters its client on the results that end the loop. -/
theorem Received.unregisters_iff : r.Unregisters ↔ r.ends = true := by
  obtain ⟨pc, next⟩ : ∃ pc, HandlerPc.getMessage.resume (.received r) = some pc := ⟨_, rfl⟩
  unfold Received.Unregisters
  rw [next]
  rcases HandlerPc.resume_getMessage next with ⟨ends, rfl | rfl⟩ | ⟨stays, rfl | rfl⟩
  · exact iff_of_true (Or.inr ⟨rfl, rfl⟩) ends
  · exact iff_of_true (Or.inl rfl) ends
  · exact iff_of_false (by simp) (by simp [stays])
  · exact iff_of_false (by simp) (by simp [stays])

/-- What is received is returned as it is exactly if it holds no zero byte and leaves one byte of the buffer. It is
taken for the end of the connection exactly if it begins with a zero byte, and the string runs out of the buffer
exactly if the buffer is full and holds no zero byte. -/
theorem get_message_whole_iff (some_bytes : 1 ≤ b.length) (fits : b.length ≤ 1024) :
    (ReturnsReceived timeout b ↔ 0 ∉ b ∧ b.length < 1024) ∧
      (Client.receive timeout .ready (.received b) = some (.text []) ↔ b.head? = some 0) ∧
      (Client.receive timeout .ready (.received b) = none ↔ 0 ∉ b ∧ b.length = 1024) := by
  refine ⟨⟨fun returns => ?_, fun clean => ?_⟩, ?_, ?_⟩
  · exact cString_overwrite_whole.mp (Client.receive_text.mp returns.whole)
  · have whole : Client.receive timeout .ready (.received b) = some (.text b) :=
      Client.receive_text.mpr (cString_overwrite_whole.mpr clean)
    have nonempty : b ≠ [] := List.ne_nil_of_length_pos some_bytes
    refine ⟨whole, fun empty => ?_, fun r result unregisters => ?_⟩
    · rw [whole] at empty
      cases empty
      exact nonempty rfl
    · cases whole.symm.trans result
      exact Received.bye_of_ends (Received.unregisters_iff.mp unregisters) nonempty
  · obtain ⟨first, rest, rfl⟩ := List.exists_cons_of_length_pos some_bytes
    rw [Client.receive_text, Client.getMessage, cString_overwrite_empty, List.head?_cons, Option.some.injEq]
  · have full : 1024 ≤ b.length ↔ b.length = 1024 := by omega
    rw [Client.receive_received, Option.map_eq_none_iff, Client.getMessage, cString_overwrite_none, full]

theorem get_message_whole_line : ReturnsReceived 30 (ascii "hello") ∧
    Client.receive 30 .ready (.received (ascii "hello")) ≠ some (.text []) := by
  obtain ⟨returned, empty, _⟩ := @get_message_whole_iff 30 (ascii "hello") (by decide) (by decide)
  exact ⟨returned.mpr (by decide), fun lost => nomatch empty.mp lost⟩

set_option maxRecDepth 8000 in
/-- A client that sends one zero byte is unregistered, and the string of a full buffer runs out of it. -/
theorem get_message_loses_bytes : (∃ r, Client.receive (-1) .ready (.received [0]) = some r ∧ r.Unregisters) ∧
    ¬ReturnsReceived (-1) [0] ∧ Client.receive (-1) .ready (.received (List.replicate 1024 65)) = none ∧
    ¬ReturnsReceived (-1) (List.replicate 1024 65) := by
  refine ⟨⟨.text [], rfl, Or.inl rfl⟩, fun returns => ?_, ?_, fun returns => ?_⟩
  · exact returns.nonempty rfl
  · rfl
  · cases returns.whole

end PCProject
