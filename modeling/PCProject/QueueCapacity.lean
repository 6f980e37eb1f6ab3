import PCProject.QueueFifo
import Mathlib.Tactic.Linarith

namespace PCProject
variable {α : Type} {lim : QueueLimits} {queue : Queue α} {cs : List (Nat × QueueChunk α)} {content : List α}

/-- Every chunk but the last is full and every chunk but the first is unread, so the
unread slots are counted by the front, the back and the number of chunks. -/
theorem windows_length {size : Nat} {p : Nat} {c : QueueChunk α} {rest : List (Nat × QueueChunk α)}
    (full : ∀ d ∈ ((p, c) :: rest).dropLast, d.2.filled = size) (unread : ∀ d ∈ rest, d.2.next = 0)
    (sound : ∀ d ∈ (p, c) :: rest, d.2.next ≤ d.2.filled ∧ d.2.filled ≤ d.2.tasks.length) :
    (((p, c) :: rest).flatMap fun d => d.2.window).length + c.next =
      rest.length * size + (((p, c) :: rest).getLast (List.cons_ne_nil _ _)).2.filled := by
  induction rest generalizing p c with
  | nil =>
    obtain ⟨order, bound⟩ := sound _ (List.mem_singleton_self _)
    have width : c.window.length = c.filled - c.next := QueueChunk.window_length bound
    simp only at order
    simp only [List.flatMap_cons, List.flatMap_nil, List.append_nil, List.length_nil, List.getLast_singleton]
    omega
  | cons d rest ih =>
    obtain ⟨q, d⟩ := d
    obtain ⟨order, bound⟩ := sound _ (List.mem_cons_self ..)
    have width : c.window.length = c.filled - c.next := QueueChunk.window_length bound
    have isFull : c.filled = size := full (p, c) (by simp)
    have zero : d.next = 0 := unread (q, d) (List.mem_cons_self ..)
    have later := ih (p := q) (c := d) (fun e member => full e (by simpa using Or.inr member))
      (fun e member => unread e (List.mem_cons_of_mem _ member))
      (fun e member => sound e (List.mem_cons_of_mem _ member))
    rw [List.getLast_cons (List.cons_ne_nil _ _), List.flatMap_cons, List.length_append, List.length_cons,
      Nat.succ_mul]
    dsimp only at order ⊢
    omega

namespace Represents

theorem length {p : Nat} {c : QueueChunk α} {rest : List (Nat × QueueChunk α)}
    (rep : Represents lim queue ((p, c) :: rest) content) :
    content.length + c.next =
      rest.length * lim.chunkSize + (((p, c) :: rest).getLast (List.cons_ne_nil _ _)).2.filled := by
  have counted := windows_length rep.full rep.unread fun d member =>
    ⟨(rep.sound d member).1, (rep.sound d member).2.1.trans (rep.sound d member).2.2.ge⟩
  rwa [rep.content, List.length_map] at counted

/-- The limits bound the number of tasks. -/
theorem length_le (rep : Represents lim queue cs content) :
    content.length ≤ lim.maxLiveChunks * lim.chunkSize := by
  obtain ⟨p, c, rest, rfl, -⟩ := rep.at_front
  have counted := rep.length
  have last := (rep.sound _ (List.getLast_mem (List.cons_ne_nil (p, c) rest))).2.1
  have bound := Nat.mul_le_mul_right lim.chunkSize rep.limit
  rw [List.length_cons, Nat.succ_mul] at bound
  omega

/-- A producer that has to wait finds all but the last of the chunks' slots taken. -/
theorem length_of_waits (rep : Represents lim queue cs content)
    (waits : queueAddWaits lim.chunkSize lim.maxLiveChunks queue = some true) :
    (lim.maxLiveChunks - 1) * lim.chunkSize < content.length := by
  obtain ⟨init, b, back, split⟩ := rep.at_back
  obtain ⟨p, c, rest, rfl, -⟩ := rep.at_front
  have counted := rep.length
  have room : c.next < lim.chunkSize := rep.room _ rfl
  simp only [rep.addWaits split, Option.some.injEq, decide_eq_true_eq, List.length_cons] at waits
  simp only [split, List.getLast_append_singleton, waits.1] at counted
  have chunks : rest.length = lim.maxLiveChunks - 1 := by omega
  rw [chunks] at counted
  omega

end Represents
end PCProject
