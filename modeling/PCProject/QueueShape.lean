import PCProject.Queue
import Mathlib.Data.List.Basic
import Mathlib.Tactic.Common

namespace PCProject
variable {α : Type}

/-- The slots of a chunk that are filled and not yet read. -/
def QueueChunk.window (queueChunk : QueueChunk α) : List (Option α) :=
  (queueChunk.tasks.take queueChunk.filled).drop queueChunk.next

/-- The queue represents a list: `cs` are the chunks met from `front` along the links,
with their addresses, and the unread slots of these chunks hold the list in order. -/
structure Represents (lim : QueueLimits) (queue : Queue α) (cs : List (Nat × QueueChunk α))
    (content : List α) : Prop where
  path : Segment QueueChunk.nextChunk queue.chunks queue.front cs none
  nonempty : cs ≠ []
  back : cs.getLast?.map Prod.fst = queue.back
  owned : ∀ a, queue.chunks a ≠ none → a ∈ cs.map Prod.fst
  full : ∀ c ∈ cs.dropLast, c.2.filled = lim.chunkSize
  unread : ∀ c ∈ cs.tail, c.2.next = 0
  sound : ∀ c ∈ cs, c.2.next ≤ c.2.filled ∧ c.2.filled ≤ lim.chunkSize ∧ c.2.tasks.length = lim.chunkSize
  room : ∀ c ∈ cs.head?, c.2.next < lim.chunkSize
  count : queue.liveChunkCount = cs.length
  limit : cs.length ≤ lim.maxLiveChunks
  content : cs.flatMap (fun c => c.2.window) = content.map some

theorem QueueChunk.window_length {queueChunk : QueueChunk α} (bound : queueChunk.filled ≤ queueChunk.tasks.length) :
    queueChunk.window.length = queueChunk.filled - queueChunk.next := by
  simp only [window, List.length_drop, List.length_take]
  omega

/-- The slot read by QUEUE_get is the first one of the window. -/
theorem QueueChunk.window_read {queueChunk : QueueChunk α} (unread : queueChunk.next < queueChunk.filled)
    (bound : queueChunk.filled ≤ queueChunk.tasks.length) :
    ∃ slot, queueChunk.tasks[queueChunk.next]? = some slot ∧
      queueChunk.window = slot :: QueueChunk.window { queueChunk with next := queueChunk.next + 1 } := by
  have inside : queueChunk.next < queueChunk.tasks.length := by omega
  refine ⟨queueChunk.tasks[queueChunk.next], List.getElem?_eq_getElem inside, ?_⟩
  have short : queueChunk.next < (queueChunk.tasks.take queueChunk.filled).length := by
    simp only [List.length_take]; omega
  simp only [window]
  rw [List.drop_eq_getElem_cons short, List.getElem_take]

/-- The slot written by QUEUE_add becomes the last one of the window. -/
theorem QueueChunk.window_write {queueChunk : QueueChunk α} (task : α) (order : queueChunk.next ≤ queueChunk.filled)
    (bound : queueChunk.filled < queueChunk.tasks.length) :
    (queueChunk.push task).window = queueChunk.window ++ [some task] := by
  simp only [window, push]
  have taken : (queueChunk.tasks.set queueChunk.filled (some task)).take (queueChunk.filled + 1) =
      queueChunk.tasks.take queueChunk.filled ++ [some task] := by
    rw [List.take_succ_eq_append_getElem (by simpa using bound), List.getElem_set_self,
      List.take_set_of_le (Nat.le_refl _)]
  rw [taken, List.drop_append_of_le_length (by simp only [List.length_take]; omega)]

theorem QueueChunk.window_empty (size : Nat) : (QueueChunk.empty size : QueueChunk α).window = [] := by
  simp [window, empty]

namespace Represents
variable {lim : QueueLimits} {queue : Queue α} {cs : List (Nat × QueueChunk α)} {content : List α}

/-- The front chunk, where QUEUE_get works. -/
theorem at_front (rep : Represents lim queue cs content) :
    ∃ p c rest, cs = (p, c) :: rest ∧ queue.front = some p ∧ queue.chunks p = some c ∧
      Segment QueueChunk.nextChunk queue.chunks c.nextChunk rest none := by
  have path := rep.path
  generalize atFront : queue.front = front at path
  cases path with
  | nil => exact absurd rfl rep.nonempty
  | cons stored rest => exact ⟨_, _, _, rfl, rfl, stored, rest⟩

theorem at_back (rep : Represents lim queue cs content) : ∃ init b c, cs = init ++ [(b, c)] := by
  obtain ⟨init, ⟨b, c⟩, split⟩ := (List.eq_nil_or_concat' cs).resolve_left rep.nonempty
  exact ⟨init, b, c, split⟩

/-- The back chunk, where QUEUE_add works. -/
theorem back_path {init : List (Nat × QueueChunk α)} {b : Nat} {c : QueueChunk α}
    (rep : Represents lim queue (init ++ [(b, c)]) content) :
    queue.back = some b ∧ queue.chunks b = some c ∧ c.nextChunk = none ∧ b ∉ init.map Prod.fst ∧
      Segment QueueChunk.nextChunk queue.chunks queue.front init (some b) := by
  have apart := rep.path.nodup
  have path := rep.path
  rw [Segment.append_iff] at path
  obtain ⟨middle, first, last⟩ := path
  cases last with
  | cons stored rest =>
    generalize atEnd : c.nextChunk = successor at rest
    cases rest with
    | nil =>
      refine ⟨by simp [← rep.back], stored, rfl, fun member => ?_, first⟩
      simp only [List.map_append, List.map_cons, List.map_nil, List.nodup_append] at apart
      exact apart.2.2 _ member _ (List.mem_singleton_self _) rfl

theorem sound_at (rep : Represents lim queue cs content) {p : Nat} {c : QueueChunk α} (member : (p, c) ∈ cs) :
    c.next ≤ c.filled ∧ c.filled ≤ lim.chunkSize ∧ c.tasks.length = lim.chunkSize :=
  rep.sound (p, c) member

end Represents
end PCProject
