import PCProject.ChatDelivery

namespace PCProject

/-- What a separator of two different entries leaves to be split, if it is met inside a part. -/
theorem separator_inside {α : Type} {a b : α} (distinct : a ≠ b) {ys ys' zs : List α}
    (rest : [a, b] ++ ys = zs ++ ([a, b] ++ ys')) :
    zs = [] ∧ ys = ys' ∨ ∃ more, zs = [a, b] ++ more ∧ ys = more ++ [a, b] ++ ys' := by
  rcases zs with _ | ⟨first, _ | ⟨second, more⟩⟩
  · exact Or.inl ⟨rfl, by simpa using rest⟩
  · simp only [List.cons_append, List.nil_append, List.cons.injEq] at rest
    exact absurd rest.2.1.symm distinct
  · simp only [List.cons_append, List.nil_append, List.cons.injEq] at rest
    obtain ⟨rfl, rfl, same⟩ := rest
    exact Or.inr ⟨more, rfl, by simpa using same⟩

/-- Two texts around a separator are equal if their parts are, or if one of them is split again
inside a part of the other. -/
theorem append_separator_eq_iff {α : Type} {a b : α} (distinct : a ≠ b) (xs ys xs' ys' : List α) :
    xs ++ [a, b] ++ ys = xs' ++ [a, b] ++ ys' ↔
      xs = xs' ∧ ys = ys' ∨ (∃ zs, xs' = xs ++ [a, b] ++ zs ∧ ys = zs ++ [a, b] ++ ys') ∨
        ∃ zs, xs = xs' ++ [a, b] ++ zs ∧ ys' = zs ++ [a, b] ++ ys := by
  rw [List.append_assoc, List.append_assoc]
  constructor
  · intro same
    rcases List.append_eq_append_iff.mp same with ⟨zs, rfl, rest⟩ | ⟨zs, rfl, rest⟩
    · rcases separator_inside distinct rest with ⟨rfl, tail⟩ | ⟨more, rfl, tail⟩
      · exact Or.inl ⟨(List.append_nil _).symm, tail⟩
      · exact Or.inr (Or.inl ⟨more, (List.append_assoc ..).symm, tail⟩)
    · rcases separator_inside distinct rest with ⟨rfl, tail⟩ | ⟨more, rfl, tail⟩
      · exact Or.inl ⟨List.append_nil _, tail.symm⟩
      · exact Or.inr (Or.inr ⟨more, (List.append_assoc ..).symm, tail⟩)
  · rintro (⟨rfl, rfl⟩ | ⟨zs, rfl, rfl⟩ | ⟨zs, rfl, rfl⟩) <;> simp

/-- The line of some name and message can be read as that of a longer name, which goes on into the message. -/
def ReadsAs (name message longer rest : Bytes) : Prop :=
  ∃ x, longer = name ++ ascii "] " ++ x ∧ message = x ++ ascii "] " ++ rest

variable {name name' message message' : Bytes}

theorem namePrefix_eq_iff : namePrefix name ++ message = namePrefix name' ++ message' ↔
    name = name' ∧ message = message' ∨ ReadsAs name message name' message' ∨ ReadsAs name' message' name message := by
  have separated := append_separator_eq_iff (by decide : (93 : UInt8) ≠ 32) name message name' message'
  rw [← show ascii "] " = [93, 32] from rfl] at separated
  unfold namePrefix ReadsAs
  rw [← separated, List.append_assoc (ascii "["), List.append_assoc (ascii "["), List.append_assoc (ascii "["),
    List.append_assoc (ascii "["), List.append_right_inj]

/-- Names without "] " cannot be confused. -/
theorem lines_identify_senders (plain : ¬ascii "] " <:+: name) (plain' : ¬ascii "] " <:+: name') :
    namePrefix name ++ message = namePrefix name' ++ message' ↔ name = name' ∧ message = message' := by
  rw [namePrefix_eq_iff]
  refine ⟨?_, Or.inl⟩
  rintro (same | ⟨x, longer, -⟩ | ⟨x, longer, -⟩)
  · exact same
  · exact absurd ⟨name, x, longer.symm⟩ plain'
  · exact absurd ⟨name', x, longer.symm⟩ plain

/-- The lines that handlers broadcast are equal exactly if they have the same sender and message, or the name
of one sender is that of the other, followed by "] " and what the message begins with. No line is a notice. -/
theorem lines_equal_iff (name message name' message' : Bytes) :
    ((HandlerPc.broadcastMessage message).call name = (HandlerPc.broadcastMessage message').call name' ↔
      name = name' ∧ message = message' ∨ ReadsAs name message name' message' ∨
        ReadsAs name' message' name message) ∧
    (HandlerPc.broadcastMessage message).call name ≠ HandlerPc.broadcastJoin.call name' ∧
    (HandlerPc.broadcastMessage message).call name ≠ HandlerPc.broadcastLeave.call name' := by
  refine ⟨?_, fun same => ?_, fun same => ?_⟩
  · rw [← namePrefix_eq_iff]
    constructor
    · exact fun same => ChatCall.broadcast.inj (Option.some.inj same)
    · exact fun same => congrArg (some ∘ ChatCall.broadcast) same
  · have first := congrArg List.head? (ChatCall.broadcast.inj (Option.some.inj same))
    simp [ascii] at first
  · have first := congrArg List.head? (ChatCall.broadcast.inj (Option.some.inj same))
    simp [ascii] at first

/-- Two clients come, with names of which one goes on from the other, and say something. -/
def confusedTalk : List ChatAction :=
  List.replicate 12 (.main true) ++ List.replicate 5 (.handler 0 (.text (ascii "a"))) ++
    [.handler 0 (.text (ascii "b] c"))] ++ List.replicate 5 (.handler 1 (.text (ascii "a] b"))) ++
    [.handler 1 (.text (ascii "c"))]

/-- Both are registered, and are about to broadcast the same line. -/
theorem lines_of_two_senders :
    ∃ s c d, (chatSystem 2).exec .start confusedTalk = some s ∧
      s.connections[0]? = some c ∧ s.connections[1]? = some d ∧ s.users = [(ascii "a", 0), (ascii "a] b", 1)] ∧
      c.client.name = ascii "a" ∧ c.pc = .broadcastMessage (ascii "b] c") ∧
      d.client.name = ascii "a] b" ∧ d.pc = .broadcastMessage (ascii "c") ∧
      c.pc.call c.client.name = d.pc.call d.client.name :=
  ⟨_, _, _, rfl, rfl, rfl, rfl, rfl, rfl, rfl, rfl, rfl⟩

end PCProject
