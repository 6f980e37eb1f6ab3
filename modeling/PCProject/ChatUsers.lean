import PCProject.ChatServer

namespace PCProject

/-- `users[name] = client`, which replaces the client of a name that is in the map. -/
def assignUser (name : Bytes) (client : Nat) : Users → Users
  | [] => [(name, client)]
  | user :: rest =>
    if user.1 = name then (name, client) :: rest
    else if name < user.1 then (name, client) :: user :: rest
    else user :: assignUser name client rest

/-- The map is in the order of its keys, so a key has one client. -/
def SortedUsers (users : Users) : Prop := users.Pairwise fun left right => left.1 < right.1

variable {name : Bytes} {i : Nat} {users : Users} {user : Bytes × Nat}

theorem mem_insertUser : user ∈ insertUser name i users ↔ user = (name, i) ∨ user ∈ users := by
  induction users with
  | nil => simp [insertUser]
  | cons first rest ih =>
    unfold insertUser
    split
    · simp
    · rw [List.mem_cons, ih, List.mem_cons]
      exact or_left_comm

theorem mem_eraseUser : user ∈ eraseUser name users ↔ user ∈ users ∧ user.1 ≠ name := by
  simp [eraseUser]

theorem Bytes.lt_of_not {a b : Bytes} (notLess : ¬a < b) (apart : b ≠ a) : b < a := by
  by_contra notMore
  exact apart (List.le_antisymm (List.not_lt.mp notLess) (List.not_lt.mp notMore))

theorem SortedUsers.rest {first : Bytes × Nat} {rest : Users} (sorted : SortedUsers (first :: rest)) :
    SortedUsers rest :=
  (List.pairwise_cons.mp sorted).2

theorem SortedUsers.first {first : Bytes × Nat} {rest : Users} (sorted : SortedUsers (first :: rest)) :
    ∀ user ∈ rest, first.1 < user.1 :=
  (List.pairwise_cons.mp sorted).1

theorem SortedUsers.unique {j : Nat} (sorted : SortedUsers users) (left : (name, i) ∈ users)
    (right : (name, j) ∈ users) :
    i = j := by
  induction users with
  | nil => cases left
  | cons first rest ih =>
    rcases List.mem_cons.mp left with here | later
    · rcases List.mem_cons.mp right with same | other
      · exact congrArg Prod.snd (here.trans same.symm)
      · have less := sorted.first _ other
        rw [← here] at less
        exact absurd less (List.lt_irrefl _)
    · rcases List.mem_cons.mp right with same | other
      · have less := sorted.first _ later
        rw [← same] at less
        exact absurd less (List.lt_irrefl _)
      · exact ih sorted.rest later other

theorem mem_assignUser (sorted : SortedUsers users) :
    user ∈ assignUser name i users ↔ user = (name, i) ∨ user ∈ users ∧ user.1 ≠ name := by
  induction users with
  | nil => simp [assignUser]
  | cons first rest ih =>
    unfold assignUser
    split
    · rename_i same
      have others : ∀ user ∈ rest, user.1 ≠ name := by
        intro user member equal
        have less := sorted.first user member
        rw [same, equal] at less
        exact List.lt_irrefl _ less
      constructor
      · intro member
        refine (List.mem_cons.mp member).imp_right fun later => ⟨List.mem_cons_of_mem _ later, others user later⟩
      · rintro (new | ⟨member, apart⟩)
        · exact List.mem_cons.mpr (Or.inl new)
        · rcases List.mem_cons.mp member with here | later
          · exact absurd (here ▸ same) apart
          · exact List.mem_cons_of_mem _ later
    · rename_i apart
      split
      · rename_i before
        have others : ∀ user ∈ first :: rest, user.1 ≠ name := by
          intro user member equal
          rcases List.mem_cons.mp member with here | later
          · exact apart (here ▸ equal)
          · have less := List.lt_trans before (sorted.first user later)
            rw [equal] at less
            exact List.lt_irrefl _ less
        rw [List.mem_cons]
        exact or_congr_right ⟨fun member => ⟨member, others user member⟩, fun found => found.1⟩
      · rw [List.mem_cons, ih sorted.rest, List.mem_cons]
        constructor
        · rintro (here | new | ⟨later, other⟩)
          · exact Or.inr ⟨Or.inl here, here ▸ apart⟩
          · exact Or.inl new
          · exact Or.inr ⟨Or.inr later, other⟩
        · rintro (new | ⟨here | later, other⟩)
          · exact Or.inr (Or.inl new)
          · exact Or.inl here
          · exact Or.inr (Or.inr ⟨later, other⟩)

theorem SortedUsers.assign (sorted : SortedUsers users) : SortedUsers (assignUser name i users) := by
  induction users with
  | nil => exact List.pairwise_singleton _ _
  | cons first rest ih =>
    unfold assignUser
    split
    · rename_i same
      refine List.pairwise_cons.mpr ⟨fun user member => ?_, sorted.rest⟩
      rw [← same]
      exact sorted.first user member
    · rename_i apart
      split
      · rename_i before
        refine List.pairwise_cons.mpr ⟨fun user member => ?_, sorted⟩
        rcases List.mem_cons.mp member with here | later
        · exact here ▸ before
        · exact List.lt_trans before (sorted.first user later)
      · rename_i notBefore
        refine List.pairwise_cons.mpr ⟨fun user member => ?_, ih sorted.rest⟩
        rcases (mem_assignUser sorted.rest).mp member with new | ⟨later, _⟩
        · rw [new]
          exact Bytes.lt_of_not notBefore apart
        · exact sorted.first user later

theorem SortedUsers.erase (sorted : SortedUsers users) : SortedUsers (eraseUser name users) :=
  List.Pairwise.sublist List.filter_sublist sorted

/-- The entry that an iteration visits next is the first one behind the key it has visited last. -/
theorem nextUser_some {visited : Option Bytes} {key : Bytes} {j : Nat} (sorted : SortedUsers users)
    (next : nextUser visited users = some (key, j)) : (key, j) ∈ users ∧ visited.all (· < key) = true ∧
      ∀ user ∈ users, visited.all (· < user.1) = true → ¬user.1 < key := by
  obtain ⟨hit, before, after, rfl, miss⟩ := List.find?_eq_some_iff_append.mp next
  refine ⟨by simp, hit, fun user member above => ?_⟩
  rcases List.mem_append.mp member with early | late
  · have missed := miss user early
    rw [above] at missed
    cases missed
  · rcases List.mem_cons.mp late with here | later
    · rw [here]
      exact List.lt_irrefl _
    · have order := (List.pairwise_append.mp sorted).2.1
      exact List.lt_asymm (SortedUsers.first order user later)

theorem nextUser_none {visited : Option Bytes} (last : nextUser visited users = none) :
    ∀ user ∈ users, visited.all (· < user.1) = false := by
  intro user member
  simpa using List.find?_eq_none.mp last user member

end PCProject
